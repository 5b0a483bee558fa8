import MessageMachine.Proofs.Invariance
import MessageMachine.Proofs.Soundness

/-!
# Blocks and the arguments they are run with

Branches and loops look at a block before they call it: one that takes arguments is answered as it
is, or rejected.  The operations that call a block with some arguments do not look at it.  There is
a class for blocks with each number of parameters, and an operation relies on being found for a
block of the class that it belongs to.

So it matters how a method was come by.  What is found for a receiver, by a full lookup or by what a
site remembers, is inherited by the class of the receiver.  Two operations invoke a method on a
receiver that it was not found for, and a method invoked in that way may go on to send to super.
These are the ways for a block to be run with a number of arguments that is not its own, and there
are no others.
-/

namespace MessageMachine

/-- How many arguments an operation calls a block with, if it does not look at the block first. -/
def BlockOperation.operandCount? : BlockOperation → Option Nat
  | .value => some 0
  | .valueWith => some 1
  | .valueWithWith => some 2
  | _ => none

/-- Such an operation belongs to the class of the blocks with as many parameters. -/
theorem BlockOperation.home_of_operandCount? {operation : BlockOperation} {count : Nat}
    (counts : operation.operandCount? = some count) :
    count ≤ blockParameterLimit ∧ (Primitive.block operation).home = blockClassName count := by
  cases operation <;> cases counts <;> exact ⟨by decide, rfl⟩

section Outcomes

/-- What can become of an operation of blocks or booleans.  It rejects its arguments, it answers
without running anything, or it runs blocks: some that it has found to take no arguments, or one
with a fixed number of arguments. -/
inductive Primitive.Handles (machine : Machine) (image : Image) (primitive : Primitive)
    (arguments : List Value) : EStateM.Result Escape Image Value → Prop
  | rejects : Handles machine image primitive arguments (primitive.mismatch image)
  | answers {value : Value} : (∀ ref, value = .block ref → value ∈ arguments) →
      Handles machine image primitive arguments (.ok value image)
  | branches {ref : BlockRef} : .block ref ∈ arguments → (image.blockAt ref).parameters = 0 →
      Handles machine image primitive arguments (machine.activate (.block ref []) image)
  | loops {condition body : BlockRef} {rest : List Value} {expected : Bool} :
      arguments = .block condition :: .block body :: rest →
      (image.blockAt condition).parameters = 0 → (image.blockAt body).parameters = 0 →
      Handles machine image primitive arguments
        (machine.loop condition body expected machine.patience image)
  | calls {operation : BlockOperation} {ref : BlockRef} {operands rest : List Value} :
      primitive = .block operation → operation.operandCount? = some operands.length →
      arguments = .block ref :: (operands ++ rest) →
      Handles machine image primitive arguments (machine.activate (.block ref operands) image)

variable (machine : Machine) (image : Image)

theorem Machine.branch_handles (primitive : Primitive) {arguments : List Value} {value : Value}
    (member : value ∈ arguments) :
    primitive.Handles machine image arguments (machine.branch value image) := by
  cases value with
  | block ref =>
      have looks : machine.branch (.block ref) image =
          if (image.blockAt ref).parameters = 0 then machine.activate (.block ref []) image
          else .ok (.block ref) image := by
        by_cases none : (image.blockAt ref).parameters = 0
        · simp only [none, if_true, Machine.branch, Eval.get_bind]
        · simp only [none, if_false, Machine.branch, Eval.get_bind]
          rfl
      rw [looks]
      split
      · next none => exact .branches member none
      · exact .answers fun _ _ => member
  | _ => exact .answers fun _ same => by cases same

theorem BooleanOperation.run_handles (operation : BooleanOperation) (arguments : List Value) :
    (Primitive.boolean operation).Handles machine image arguments
      ((Primitive.boolean operation).run machine arguments image) := by
  change Primitive.Handles machine image _ arguments (operation.run machine arguments image)
  have answered : ∀ {value : Value}, value = .nil ∨ (∃ truth, value = .boolean truth) →
      (Primitive.boolean operation).Handles machine image arguments (.ok value image) := by
    rintro value (rfl | ⟨truth, rfl⟩) <;> exact .answers fun _ same => by cases same
  unfold BooleanOperation.run
  split
  · split
    · exact machine.branch_handles image _ (by simp)
    · exact answered (Or.inl rfl)
  · split
    · exact answered (Or.inl rfl)
    · exact machine.branch_handles image _ (by simp)
  · split <;> exact machine.branch_handles image _ (by simp)
  · split <;> exact machine.branch_handles image _ (by simp)
  · exact answered (Or.inr ⟨_, rfl⟩)
  · split
    · exact machine.branch_handles image _ (by simp)
    · exact answered (Or.inr ⟨_, rfl⟩)
  · split
    · exact answered (Or.inr ⟨_, rfl⟩)
    · exact machine.branch_handles image _ (by simp)
  · exact .rejects

theorem BlockOperation.run_handles (operation : BlockOperation) (arguments : List Value) :
    (Primitive.block operation).Handles machine image arguments
      ((Primitive.block operation).run machine arguments image) := by
  change Primitive.Handles machine image _ arguments (operation.run machine arguments image)
  have looped : ∀ {condition body : BlockRef} {rest : List Value} (expected : Bool),
      arguments = .block condition :: .block body :: rest →
      (Primitive.block operation).Handles machine image arguments
        (BlockOperation.runLoop machine operation expected condition body image) := by
    intro condition body rest expected given
    unfold BlockOperation.runLoop
    rw [Eval.get_bind]
    split
    · next none => exact .loops given none.1 none.2
    · exact .rejects
  unfold BlockOperation.run
  split
  · refine .answers fun ref same => ?_
    unfold Value.ofInt at same
    split at same <;> cases same
  · exact looped true rfl
  · exact looped false rfl
  · exact @Primitive.Handles.calls machine image _ _ _ _ [] _ rfl rfl rfl
  · exact @Primitive.Handles.calls machine image _ _ _ _ [_] _ rfl rfl rfl
  · exact @Primitive.Handles.calls machine image _ _ _ _ [_, _] _ rfl rfl rfl
  · exact .rejects

end Outcomes

/-- Whether an expression came out of some preparation.  The frame that it is evaluated in need not
be one that it was prepared for. -/
def Code.IsSuited (code : Code) : Prop :=
  ∃ fields superclass scopes, code.Suits fields superclass scopes

/-- Whether a block takes no more arguments than there are classes for, and neither do the blocks in
its body. -/
structure Closure.IsSuited (closure : Closure) : Prop where
  few : closure.parameters ≤ blockParameterLimit
  body : ∀ code ∈ closure.body, code.IsSuited

/-- Whether what an action brings in belongs there, whatever frame a block has kept hold of. -/
def Action.Fitting (image : Image) : Action → Prop
  | .makeBlock closure => closure.IsSuited
  | .install holder _ behavior => behavior.Belongs image holder
  | _ => True

namespace Image

/-- What holds of an image even if methods are invoked on receivers that they are not for.  Lookups
and sites lead to inherited methods, and blocks have one of the numbers of parameters that there are
classes for. -/
structure Regular (image : Image) : Prop where
  formed : image.WellFormed
  hierarchy : image.Hierarchical
  staff : image.Staffed
  caches : image.Mindful
  blocks : ∀ ref, image.heap.blocks.Has ref → (image.blockAt ref).IsSuited

/-- A method that the class of a block inherits, if it calls the block without looking at it, calls
it with its own number of arguments. -/
theorem Regular.length_of_calls {image : Image} (regular : image.Regular) {ref : MethodRef}
    {block : BlockRef} (known : image.heap.blocks.Has block)
    (inherits : image.Inherits (image.classOf (.block block)) ref) {operation : BlockOperation}
    (behavior : (image.methodAt ref).behavior = .primitive (.block operation)) {count : Nat}
    (counts : operation.operandCount? = some count) :
    count = (image.blockAt block).parameters := by
  obtain ⟨few, home⟩ := BlockOperation.home_of_operandCount? counts
  exact regular.staff.length_of_calls regular.hierarchy (regular.blocks block known).few inherits
    behavior few home

/-- Every allowed action that fits keeps an image regular. -/
theorem Regular.perform {image : Image} {action : Action} (regular : image.Regular)
    (allowed : action.Allowed image) (fitting : action.Fitting image) :
    (action.perform image).Regular := by
  obtain ⟨formed, hierarchy, staff, caches, blocks⟩ := regular
  have staffAfter := staff.perform formed caches allowed fun holder selector behavior same => by
    subst same
    exact fitting
  refine {
    formed := Action.wellFormed_perform formed allowed
    hierarchy := hierarchy.perform formed allowed
    staff := staffAfter.1
    caches := staffAfter.2
    blocks := fun ref known => ?_ }
  by_cases old : image.heap.blocks.Has ref
  · rw [(Action.retains_perform allowed).blocks ref old]
    exact blocks ref old
  · obtain ⟨closure, rfl, made⟩ := made_of_perform known old
    rw [made]
    exact fitting

theorem Coherent.regular {image : Image} (coherent : image.Coherent) : image.Regular where
  formed := coherent.formed
  hierarchy := coherent.hierarchy
  staff := coherent.staff
  caches := coherent.caches
  blocks := fun ref known => by
    cases coherent.blocks ref known with
    | intro _ few suits _ => exact ⟨few, fun code member => ⟨_, _, _, suits code member⟩⟩

end Image

theorem Definition.fitting {image : Image} {action : Action}
    (definition : Definition image action) : action.Fitting image := by
  have suitable := definition.suitable
  cases definition <;> exact suitable

theorem Image.Built.regular {start image : Image} (built : start.Built image)
    (regular : start.Regular) : image.Regular :=
  built.induction regular fun definition regular =>
    regular.perform definition.allowed definition.fitting

/-- Requests that run nothing keep an image regular. -/
theorem Request.regular_serve {machine : Machine} {request : Request} {image : Image}
    (admissible : request.Admissible image) (still : request.evaluation? = none)
    (regular : image.Regular) : (request.serve machine image).2.Regular := by
  rcases @action_or_built machine request image regular.formed admissible still with
    ⟨action, found⟩ | built
  · rw [serve_of_action? found]
    refine regular.perform (allowed_of_action? regular.formed admissible found) ?_
    cases request with
    | detach block =>
        cases found
        exact ⟨(regular.blocks block admissible).few, (regular.blocks block admissible).body⟩
    | removeMethod | instantiate | makeArray | setGlobal | readField | writeField | meet =>
        cases found
        trivial
    | _ => cases found
  · exact built.regular regular

/-- Whether a block is run with its own number of arguments. -/
def Activation.Counted (image : Image) : Activation → Prop
  | .block ref arguments => arguments.length = (image.blockAt ref).parameters
  | .method _ _ => True

/-- Whether a method is run for a receiver that inherits it. -/
def Activation.Inherited (image : Image) : Activation → Prop
  | .method ref (receiver :: _) => image.Inherits (image.classOf receiver) ref
  | _ => True

/-- Whether an expression sends nothing to super, and neither do the blocks in it. -/
def Code.IsSuperless (code : Code) : Prop :=
  ∀ site origin selector, OutlineNode.superSend site origin selector ∉ code.outline

namespace Discipline

/-- The discipline of heeding what methods are found for.  The activations that are asked for are
counted and inherited, apart from those that are excused from the one or the other. -/
def heeding (uncounted foreign : Activation → Prop) : Discipline where
  Holds := Image.Regular
  Later := Image.Retains
  Good := fun image value => value.Exists image
  Fine := fun image escape => ∀ value home, escape = .unwinding value home → value.Exists image
  Fits := fun image _ code => code.IsSuited ∧ (∀ node ∈ code.outline, image.Outlines node) ∧
    ((∀ activation, foreign activation) ∨ code.IsSuperless)
  Runs := fun image activation => activation.Known image ∧
    (activation.Counted image ∨ uncounted activation) ∧
    (activation.Inherited image ∨ foreign activation)
  Begun := fun _ => (∀ activation, uncounted activation) ∧ ∀ activation, foreign activation
  Here := fun _ _ _ => True
  Given := fun _ _ _ _ => True

section Laws

variable {uncounted foreign : Activation → Prop} {image : Image} {activation : Activation}
  {frame : Frame} {body : List Code}

theorem heeding_act {action : Action} (regular : image.Regular) (allowed : action.Allowed image)
    (fitting : action.Fitting image) :
    (heeding uncounted foreign).Steps image (action.perform image) :=
  ⟨regular.perform allowed fitting, Action.retains_perform allowed⟩

/-- A method that the class of the receiver inherits is excused from nothing. -/
theorem heeding_method {method : MethodRef} {receiver : Value} {operands : List Value}
    (allKnown : Value.AllExist image (receiver :: operands))
    (inherits : image.Inherits (image.classOf receiver) method) :
    (heeding uncounted foreign).Runs image (.method method (receiver :: operands)) :=
  ⟨allKnown, Or.inl trivial, Or.inl inherits⟩

/-- Where everything is excused, existing values are enough. -/
theorem heeding_excused (excused : (heeding uncounted foreign).Begun ⟨0, activation, image⟩)
    (known : activation.Known image) : (heeding uncounted foreign).Runs image activation :=
  ⟨known, Or.inr (excused.1 activation), Or.inr (excused.2 activation)⟩

theorem heeding_parts {ref : FrameRef} {code : Code}
    (fits : (heeding uncounted foreign).Fits image ref code) :
    ∀ part ∈ code.parts, (heeding uncounted foreign).Fits image ref part := by
  obtain ⟨⟨fields, superclass, scopes, suits⟩, provided, superless⟩ := fits
  intro part member
  exact ⟨⟨fields, superclass, scopes, suits.parts part member⟩,
    fun node found => provided node (Code.outline_of_part member found),
    superless.imp_right fun none site origin selector found =>
      none site origin selector (Code.outline_of_part member found)⟩

/-- A block that is made has one of the numbers of parameters that there are classes for. -/
theorem heeding_block {ref : FrameRef} {parameters temporaries : Nat} {captures : Bool}
    (regular : image.Regular)
    (fits : (heeding uncounted foreign).Fits image ref
      (.block parameters temporaries captures body)) :
    (heeding uncounted foreign).Steps image (image.addBlock
      { captured := if captures then some ref else none, parameters, temporaries, body }) := by
  obtain ⟨⟨fields, superclass, scopes, suits⟩, provided, -⟩ := fits
  cases suits with
  | block few _ inside =>
      have allowed : (Action.makeBlock
          { captured := if captures then some ref else none, parameters, temporaries,
            body }).Allowed image :=
        fun node found => provided node (List.mem_cons_of_mem _ found)
      exact heeding_act regular allowed ⟨few, fun code member => ⟨_, _, _, inside code member⟩⟩

/-- What a send at a site is resolved to is inherited. -/
theorem heeding_resolve {ref : FrameRef} {code : Code} {site : CallSiteRef} {selector : Selector}
    {receiver : Value} (regular : image.Regular)
    (fits : (heeding uncounted foreign).Fits image ref code)
    (sending : code.sending? = some (site, selector)) (known : receiver.Exists image) :
    let answer := image.lookupAt site selector receiver
    (heeding uncounted foreign).Steps image answer.2 ∧ ∀ method, answer.1 = some method →
      ∀ operands, (heeding uncounted foreign).AllGood answer.2 operands →
      (heeding uncounted foreign).Runs answer.2 (.method method (receiver :: operands)) := by
  have sends := sends_of_sending? fits.2.1 sending
  have allowed : (Action.resolve site selector receiver).Allowed image := ⟨known, sends⟩
  have retains := Action.retains_perform allowed
  refine ⟨heeding_act regular allowed trivial, fun method found operands allKnown => ?_⟩
  have inherits := (regular.caches.inherits_of_lookupAt regular.staff regular.formed known sends
    found).mono retains
  rw [← retains.classOf known] at inherits
  exact heeding_method (.cons (known.mono retains.extended) allKnown) inherits

/-- What a send to super is resolved to need not be inherited by the receiver. -/
theorem heeding_resolveSuper {earlier : Image} {ref : FrameRef} {site : CallSiteRef}
    {origin : ClassRef} {selector : Selector} {codes : List Code} (before : earlier.Regular)
    (fits : (heeding uncounted foreign).Fits earlier ref (.superSend site origin selector codes))
    (later : earlier.Retains image) (regular : image.Regular) :
    let answer := image.lookupSuperAt site origin selector
    (heeding uncounted foreign).Steps image answer.2 ∧ ∀ method, answer.1 = some method →
      ∀ operands, (heeding uncounted foreign).AllGood answer.2 operands →
      (heeding uncounted foreign).Runs answer.2
        (.method method ((earlier.frameAt ref).receiver :: operands)) := by
  obtain ⟨-, provided, superless⟩ := fits
  have sends : image.SendsSuper site origin selector :=
    (provided _ List.mem_cons_self).mono later.extended
  have allowed : (Action.resolveSuper site origin selector).Allowed image := sends
  have retains := Action.retains_perform allowed
  have known := (before.formed.within.frames ref).receiver
  refine ⟨heeding_act regular allowed trivial, fun method found operands allKnown => ?_⟩
  refine ⟨.cons ((known.mono later.extended).mono retains.extended) allKnown, Or.inl trivial, ?_⟩
  rcases superless with excused | none
  · exact Or.inr (excused _)
  · exact absurd List.mem_cons_self (none site origin selector)

/-- An operation that puts a value into an array puts in an existing one. -/
theorem heeding_put {primitive : Primitive} {arguments : List Value} {ref : ArrayRef}
    {value : Value} (regular : image.Regular) (allKnown : Value.AllExist image arguments)
    (puts : primitive.Puts arguments ref value) (place : Nat) :
    (heeding uncounted foreign).Steps image
      ((Action.setElement ref place value).perform image) := by
  have allowed : (Action.setElement ref place value).Allowed image := allKnown value puts.mem
  exact heeding_act regular allowed trivial

/-- The body of an activation came out of a preparation. -/
theorem heeding_enter (regular : image.Regular) (known : activation.Known image)
    (opened : activation.opening? image = some (frame, body)) :
    (image.addFrame frame).Regular ∧ ∀ code ∈ body, code.IsSuited ∧
      ∀ node ∈ code.outline, (image.addFrame frame).Outlines node := by
  have retains := Image.Retains.addFrame image frame
  obtain ⟨allowed, outlined⟩ := enters_of_opening regular.formed known opened
  refine ⟨regular.perform allowed trivial, fun code member => ⟨?_, fun node found =>
    (outlined code member node found).mono retains.extended⟩⟩
  cases Activation.opens_of_opening opened with
  | @method ref receiver operands routine behavior count =>
      have belongs := regular.staff.behaviors ref
      rw [behavior] at belongs
      exact ⟨_, _, _, belongs code member⟩
  | @block ref arguments => exact (regular.blocks ref known.1).body code member

theorem heeding_laws (uncounted foreign : Activation → Prop) :
    (heeding uncounted foreign).Laws where
  toOrder := ⟨Image.Retains.refl, Image.Retains.trans⟩
  toValues := .of_existing rfl (fun _ regular => regular.formed) fun _ _ retains =>
    retains.extended
  toEscapes := {
    exhausted := fun _ => nofun
    failed := fun _ _ _ => nofun
    traced := fun _ _ => nofun
    stopped := fun _ => nofun
    unwound := fun fine => fine _ _ rfl }
  toPrograms := {
    carry := fun retains ⟨suited, provided, superless⟩ =>
      ⟨suited, fun node found => (provided node found).mono retains.extended, superless⟩
    parts := fun fits => heeding_parts fits
    literal := fun _ _ _ => trivial
    read := fun _ _ _ => nofun
    write := fun {image _ slot _ value home} regular _ known _ => by
      have allowed : (Action.setSlot home slot.kind slot.index value).Allowed image := known
      exact heeding_act regular allowed trivial
    unwritten := fun _ _ _ => nofun
    readField := fun {image frame site index} regular fits => by
      have allowed : (Action.readFieldAt site (image.frameAt frame).receiver index).Allowed image :=
        ⟨(regular.formed.within.frames frame).receiver, Or.inl (fits.2.1 _ List.mem_cons_self)⟩
      exact ⟨heeding_act regular allowed trivial, fun _ => nofun⟩
    writeField := fun {image frame site index _ value} regular fits known _ => by
      have allowed : (Action.writeFieldAt site (image.frameAt frame).receiver index value).Allowed
          image :=
        ⟨(regular.formed.within.frames frame).receiver, known,
          Or.inr (fits.2.1 _ List.mem_cons_self)⟩
      exact ⟨heeding_act regular allowed trivial, fun _ => nofun⟩
    block := fun regular fits _ => heeding_block regular fits
    answer := fun _ _ known _ _ _ same => by
      cases same
      exact known
    resolve := fun regular fits sending known _ => heeding_resolve regular fits sending known
    resolveSuper := fun before fits later regular _ =>
      heeding_resolveSuper before fits later regular }
  toActivations := {
    found := fun regular known found retains _ allKnown => by
      have inherits := (regular.staff.inherits_of_lookup regular.formed
        (Image.has_classOf regular.formed known) found).mono retains
      rw [← retains.classOf known] at inherits
      exact heeding_method (.cons (known.mono retains.extended) allKnown) inherits
    called := fun {_ image ref} _ known count retains _ => by
      refine ⟨⟨Nat.lt_of_lt_of_le known retains.extended.blocks, .nil image⟩, Or.inl ?_,
        Or.inl trivial⟩
      rw [Activation.Counted, retains.blocks ref known, count]
      rfl
    arguments := fun runs => runs.1
    accompanied := fun _ _ _ => nofun
    calls := fun regular performs calls => by
      obtain ⟨budget, ref, excused, ⟨allKnown, -⟩, -⟩ := performs
      exact heeding_excused excused (known_of_calls regular.formed allKnown calls)
    puts := fun regular ⟨_, _, _, ⟨allKnown, _⟩, _⟩ puts place =>
      heeding_put regular allKnown puts place
    assigns := fun {_ _ _ receiver place value} regular _ _ known valueKnown => by
      have allowed : (Action.writeField receiver place value).Allowed _ := ⟨known, valueKnown⟩
      exact heeding_act regular allowed trivial
    nested := fun begun _ => begun
    here := fun _ _ => trivial
    given := fun _ _ _ => trivial
    enter := fun regular runs begun opened => by
      obtain ⟨entered, fits⟩ := heeding_enter regular runs.1 opened
      exact ⟨entered, fun code member =>
        ⟨(fits code member).1, (fits code member).2, Or.inl begun.2⟩⟩
    leave := fun {_ image frame _ after} _ _ _ later regular => by
      have allowed : (Action.leave image.heap.frames.next).Allowed after := trivial
      have retains := Action.retains_perform allowed
      refine ⟨⟨regular.perform allowed trivial,
        ((Image.Retains.addFrame image frame).trans later).trans retains⟩, ?_, ?_⟩
      · exact fun _ known => known.mono retains.extended
      · exact fun _ fine _ value home same => (fine value home same).mono retains.extended }
  act := fun {image action} regular may => by
    refine heeding_act regular ?_ ?_
    · cases action <;> first | exact may | exact may.elim
    · cases action <;> first | exact may.elim | trivial

end Laws

end Discipline

/-- Whether an activation runs an operation that calls a block without looking at it, with a number
of arguments, for a block whose class does not inherit the operation. -/
inductive Running.Misapplies : Running → BlockRef → Nat → Prop
  | intro {budget count : Nat} {image : Image} {ref : MethodRef} {block : BlockRef}
      {operands : List Value} {operation : BlockOperation} :
      (image.methodAt ref).behavior = .primitive (.block operation) →
      operation.operandCount? = some count →
      ¬ image.Inherits (image.classOf (.block block)) ref →
      Misapplies ⟨budget, .method ref (.block block :: operands), image⟩ block count

/-- Whether a send to super stands in the code of an activation or in a block inside it. -/
def Running.SendsSuper (running : Running) : Prop :=
  ∃ frame body, running.activation.opening? running.image = some (frame, body) ∧
    ∃ code ∈ body, ¬ code.IsSuperless

/-- Whether a request leaves it to the machine to find what is to be run. -/
def Request.looksUp : Request → Bool
  | .invoke _ _ _ => false
  | .activate _ => false
  | _ => true

namespace Discipline

variable {session : Session} {uncounted foreign : Activation → Prop}

/-- What is evaluated for a request heeds what methods are found for, unless the request brings
along what is to be run. -/
theorem heeding_evaluates {machine : Machine} {request : Request} {image : Image}
    {body : Machine → Eval Value} (admissible : request.Admissible image)
    (evaluation : request.evaluation? = some body) (regular : image.Regular)
    (looks : request.looksUp = true ∨
      (∀ activation, uncounted activation) ∧ ∀ activation, foreign activation) :
    (heeding uncounted foreign).Evaluates machine image body := by
  have laws := heeding_laws uncounted foreign
  cases request with
  | send selector receiver operands =>
      cases evaluation
      refine Keeps.bind laws.toOrder (laws.meet regular selector) fun _ _ regularMet later _ => ?_
      exact send_keeps laws regularMet selector (laws.keepAll later admissible)
  | deliver selector arguments =>
      cases evaluation
      cases arguments with
      | nil => exact Keeps.throw laws.toOrder regular rfl nofun
      | cons receiver operands => exact send_keeps laws regular selector admissible
  | invoke method receiver operands =>
      cases evaluation
      have excused := looks.resolve_left Bool.false_ne_true
      exact Keeps.activate laws.toOrder regular (heeding_excused excused admissible)
  | activate activation =>
      cases evaluation
      have excused := looks.resolve_left Bool.false_ne_true
      exact Keeps.activate laws.toOrder regular (heeding_excused excused admissible)
  | _ => cases evaluation

section Requests

variable (begun : session.start.Regular)
  (admissible : ∀ {request image}, session.Serves request image → request.Admissible image)
include begun admissible

/-- The images of a session stay regular, whatever is forced. -/
theorem always_regular : session.Always Image.Regular :=
  Discipline.always (heeding_laws (fun _ => True) fun _ => True)
    (fun _ => ⟨fun _ => trivial, fun _ => trivial⟩) begun
    (fun serves still regular => Request.regular_serve (admissible serves) still regular)
    fun serves evaluation regular => heeding_evaluates (admissible serves) evaluation regular
      (Or.inr ⟨fun _ => trivial, fun _ => trivial⟩)

/-- Every session keeps to the discipline that excuses everything. -/
theorem heeding_hosts : (heeding (fun _ => True) fun _ => True).Hosts session where
  begun := fun _ => ⟨fun _ => trivial, fun _ => trivial⟩
  evaluates := fun serves evaluation => heeding_evaluates (admissible serves) evaluation
    ((always_regular begun admissible).served serves)
    (Or.inr ⟨fun _ => trivial, fun _ => trivial⟩)

end Requests

/-- What activations come to does not depend on what they are excused from. -/
theorem heeding_trusts (budget : Nat) {start : Image} {Answer : Type}
    (body : Machine → Eval Answer) :
    (heeding uncounted foreign).Trusts (.ofBudget budget) start body := by
  intro activation image _ regular _ runs
  have yielded := faithful (heeding_laws (fun _ => True) fun _ => True) budget regular
    ⟨runs.1, Or.inr trivial, Or.inr trivial⟩ ⟨fun _ => trivial, fun _ => trivial⟩
  change (heeding uncounted foreign).Yields _ image (activation.run budget image)
  generalize activation.run budget image = result at yielded ⊢
  cases yielded with
  | ok regular retains known => exact .ok regular retains known
  | error regular retains fine => exact .error regular retains fine

/-- What a request asks for that leaves it to the machine to find what is to be run. -/
theorem heeding_first {request : Request} {served image : Image} {body : Machine → Eval Value}
    {activation : Activation} {budget : Nat} (admissible : request.Admissible served)
    (regular : served.Regular) (evaluation : request.evaluation? = some body)
    (looks : request.looksUp = true) (asks : Asks body (.ofBudget budget) served activation image) :
    activation.Counted image ∧ activation.Inherited image := by
  have keeps : (heeding (fun _ => False) fun _ => False).Evaluates (.ofBudget budget) served body :=
    heeding_evaluates admissible evaluation regular (Or.inl looks)
  obtain ⟨-, counted, inherited⟩ := ((keeps (heeding_trusts budget body)).warrant asks).runs
  exact ⟨counted.resolve_right id, inherited.resolve_right id⟩

section Stack

variable (hosts : (heeding (fun _ => True) fun _ => True).Hosts session)
  {budget : Nat} {activation asked : Activation} {begun image : Image} {below : List Running}
  (moment : session.Underway (⟨budget + 1, activation, begun⟩ :: below))
  (asks : activation.Asks (.ofBudget budget) begun asked image)
include hosts moment asks

/-- What an activation on the stack asks for is counted and inherited, apart from what is excused:
the code of the activation sends nothing to super, or everything may be foreign, and the operations
that get around lookups are seen to. -/
theorem heeding_asked (superless : (∀ activation, foreign activation) ∨
      ¬ Running.SendsSuper ⟨budget + 1, activation, begun⟩)
    (calls : ∀ ref arguments primitive called, activation = .method ref arguments →
      (begun.methodAt ref).behavior = .primitive primitive →
      primitive.Calls begun arguments called →
      (called.Counted begun ∨ uncounted called) ∧ (called.Inherited begun ∨ foreign called)) :
    (asked.Counted image ∨ uncounted asked) ∧ (asked.Inherited image ∨ foreign asked) := by
  have laws := heeding_laws uncounted foreign
  obtain ⟨regular, known, -⟩ := hosts.underway (heeding_laws _ _) moment
  cases asks with
  | @code frame body _ _ opened asks =>
      obtain ⟨entered, fits⟩ := heeding_enter regular known opened
      have ready : (heeding uncounted foreign).Ready (.ofBudget budget) begun.heap.frames.next
          body (begun.addFrame frame) := {
        holds := entered
        fits := fun code member => by
          refine ⟨(fits code member).1, (fits code member).2, superless.imp_right fun none => ?_⟩
          by_contra contrary
          exact none ⟨frame, body, opened, code, member, contrary⟩
        here := fun _ _ _ => trivial
        given := fun _ _ _ _ _ _ => trivial }
      exact ((body_keeps laws ready (heeding_trusts budget _)).warrant asks).runs.2
  | @operation ref arguments primitive _ _ method behavior asks =>
      subst method
      have keeps : (heeding uncounted foreign).Evaluates (.ofBudget budget) begun fun machine =>
          machine.runPrimitive primitive (begun.methodAt ref).selector arguments :=
        runPrimitive_keeps laws regular primitive _ (fun _ _ _ => nofun) known
          (fun called calling => ⟨known_of_calls regular.formed known calling,
            calls ref arguments primitive called rfl behavior calling⟩)
          (fun _ _ puts place => heeding_put regular known puts place)
          fun receiver place value assigns => by
            have allowed : (Action.writeField receiver place value).Allowed begun :=
              ⟨known receiver assigns.receiver_mem, known value assigns.value_mem⟩
            exact heeding_act regular allowed trivial
      exact ((keeps (heeding_trusts budget _)).warrant asks).runs.2

/-- A block that an activation asks for gets its own number of arguments, unless the activation
misapplies an operation. -/
theorem counted_or_misapplied {block : BlockRef} {arguments : List Value}
    (runs : asked = .block block arguments) :
    arguments.length = (image.blockAt block).parameters ∨
      Running.Misapplies ⟨budget + 1, activation, begun⟩ block arguments.length := by
  let misapplied : Activation → Prop := fun called => ∃ block arguments,
    called = .block block arguments ∧
      Running.Misapplies ⟨budget + 1, activation, begun⟩ block arguments.length
  obtain ⟨regular, known, -⟩ := hosts.underway (heeding_laws _ _) moment
  -- The one block that an operation calls without looking at it is the one it is run for.
  have called : ∀ {ref block operation operands rest},
      activation = .method ref (.block block :: rest) →
      (begun.methodAt ref).behavior = .primitive (.block operation) →
      operation.operandCount? = some operands.length →
      (Activation.block block operands).Counted begun ∨ misapplied (.block block operands) := by
    intro ref block operation operands rest same behavior counts
    subst same
    by_cases inherits : begun.Inherits (begun.classOf (.block block)) ref
    · exact Or.inl (regular.length_of_calls (known _ List.mem_cons_self) inherits behavior counts)
    · exact Or.inr ⟨block, operands, rfl, .intro behavior counts inherits⟩
  have outcome := @heeding_asked session misapplied (fun _ => True) hosts _ _ _ _ _ _ moment asks
    (Or.inl fun _ => trivial) fun ref given primitive other same behavior calls => by
      refine ⟨?_, Or.inr trivial⟩
      cases calls with
      | value => exact called same behavior rfl
      | valueWith => exact called same behavior rfl
      | valueWithWith => exact called same behavior rfl
      | invoked | inSuperclass => exact Or.inl trivial
  subst runs
  refine outcome.1.imp_right ?_
  rintro ⟨_, _, same, misapplies⟩
  cases same
  exact misapplies

/-- A method that an activation asks for is inherited by the class of the receiver, unless the
activation gets around lookups or sends to super. -/
theorem inherited_or_forced {method : MethodRef} {receiver : Value} {operands : List Value}
    (runs : asked = .method method (receiver :: operands)) :
    image.Inherits (image.classOf receiver) method ∨
      Running.Forces ⟨budget + 1, activation, begun⟩ ∨
      Running.SendsSuper ⟨budget + 1, activation, begun⟩ := by
  by_cases forces : Running.Forces ⟨budget + 1, activation, begun⟩
  · exact Or.inr (Or.inl forces)
  by_cases sends : Running.SendsSuper ⟨budget + 1, activation, begun⟩
  · exact Or.inr (Or.inr sends)
  have outcome := @heeding_asked session (fun _ => True) (fun _ => False) hosts _ _ _ _ _ _ moment
    asks (Or.inr sends) fun ref given primitive other same behavior calls => by
      refine ⟨Or.inr trivial, Or.inl ?_⟩
      cases calls with
      | value | valueWith | valueWithWith => trivial
      | invoked => exact absurd ⟨Nat.succ_pos _, ref, _, same, Or.inl behavior⟩ forces
      | inSuperclass _ => exact absurd ⟨Nat.succ_pos _, ref, _, same, Or.inr behavior⟩ forces
  subst runs
  exact Or.inl (outcome.2.resolve_right id)

end Stack

end Discipline

open Discipline

section Session

variable {platform : Platform} {settings : Settings} {listening : Bool} {budget : Nat}
  {requests : List Request}

/-- Blocks get their own number of arguments, and where they do not it is known why.

An operation of blocks or booleans rejects its arguments, answers without running a block, runs
blocks that it has found to take no arguments, or calls a block without looking at it.  In a session
of a host that brings along no activations, a block that is run has as many arguments as parameters,
unless it was called by an operation that its class does not inherit.  Such an operation was asked
for by an operation that gets around lookups, or by code with a send to super.  If the host does
nothing but define classes, install methods, make objects, read and write fields and send messages,
and neither of the operations is run that get around lookups, then every block that is run has as
many arguments as parameters. -/
theorem blocks_get_their_arguments (looking : ∀ request ∈ requests, request.looksUp = true)
    (admissible : Request.Throughout (.ofBudget budget)
      (fun image request => request.Admissible image) requests
      (.initial platform settings listening)) :
    (∀ machine image arguments,
      (∀ operation : BlockOperation, (Primitive.block operation).Handles machine image arguments
        ((Primitive.block operation).run machine arguments image)) ∧
      ∀ operation : BooleanOperation, (Primitive.boolean operation).Handles machine image arguments
        ((Primitive.boolean operation).run machine arguments image)) ∧
    (∀ running below,
      (Session.fresh platform settings listening budget requests).Underway (running :: below) →
      (∀ block arguments, running.activation = .block block arguments →
        arguments.length = (running.image.blockAt block).parameters ∨
        ∃ opener rest, below = opener :: rest ∧ opener.Misapplies block arguments.length) ∧
      ∀ block count, running.Misapplies block count →
        ∃ opener rest, below = opener :: rest ∧ (opener.Forces ∨ opener.SendsSuper)) ∧
    ((∀ request ∈ requests, request.isOrdinary = true) →
      (∀ running below,
        (Session.fresh platform settings listening budget requests).Underway (running :: below) →
          ¬ running.Forces) →
      ∀ running below,
        (Session.fresh platform settings listening budget requests).Underway (running :: below) →
        ∀ block arguments, running.activation = .block block arguments →
          arguments.length = (running.image.blockAt block).parameters) := by
  have coherent := Session.coherent_fresh platform settings listening budget requests
  have hosts := heeding_hosts coherent.regular admissible.of_fresh
  refine ⟨fun machine image arguments =>
    ⟨fun operation => operation.run_handles machine image arguments,
      fun operation => operation.run_handles machine image arguments⟩, ?_, ?_⟩
  · intro running below moment
    cases moment with
    | first serves evaluation asks =>
        obtain ⟨counted, inherited⟩ := heeding_first (admissible.of_fresh serves)
          ((always_regular coherent.regular admissible.of_fresh).served serves) evaluation
          (looking _ serves.mem) asks
        refine ⟨fun block arguments runs => ?_, fun block count misapplies => ?_⟩
        · subst runs
          exact Or.inl counted
        · cases misapplies with
          | intro behavior counts foreign => exact absurd inherited foreign
    | nested moment asks =>
        refine ⟨fun block arguments runs => ?_, fun block count misapplies => ?_⟩
        · exact (counted_or_misapplied hosts moment asks runs).imp_right fun misapplies =>
            ⟨_, _, rfl, misapplies⟩
        · cases misapplies with
          | intro behavior counts foreign =>
              exact ⟨_, _, rfl, (inherited_or_forced hosts moment asks rfl).resolve_left foreign⟩
  · intro ordinary avoids running below moment block arguments runs
    have laws := matching_laws avoids
    have hosts := matching_hosts laws coherent ordinary admissible.of_fresh
    have suits := (hosts.underway laws moment).2
    rw [runs] at suits
    cases suits with
    | block _ _ count => exact count

end Session

/-- A class with a method that answers a block.  The block answers its argument. -/
def misledClass : Source.ClassDefinition where
  name := "Maker"
  superclass := none
  fields := []
  methods := [{
    selector := "make"
    parameters := 0
    body := .expressions 0
      [.answer (.block 1 0 [.read (.slot ⟨.argument, 0, 0⟩)]) ⟨1, 1⟩] }]
  classFields := []
  classMethods := []

/-- The block is told to look up a message in the class of the blocks that take no arguments. -/
def misledRequests : List Request :=
  [.defineClass misledClass, .instantiate ⟨37⟩, .send "make" (.object ⟨0⟩) [],
    .send "perform:inSuperclass:" (.block ⟨0⟩) [.symbol "value", .classObject ⟨31⟩]]

def misledSession : Session :=
  .fresh .plain .standard false 3 misledRequests

/-- The image in which there is a block to be told so. -/
def temptingImage : Image :=
  ((Request.send "make" (.object ⟨0⟩) []).serve (.ofBudget 3)
    ((Request.instantiate ⟨37⟩).serve (.ofBudget 3)
      ((Request.defineClass misledClass).serve (.ofBudget 3)
        (.initial .plain .standard false)).2).2).2

/-- The image in which the block is told so. -/
def misledImage : Image :=
  temptingImage.meet "perform:inSuperclass:"

/-- What is found out about the image: which methods are found, what they do, how many arguments the
block takes, and what the host is told. -/
def misleads : Option MethodRef → Behavior → Option MethodRef → Behavior → Nat → Response → Bool
  | some ⟨5⟩, .primitive (.object .performInSuperclass), some ⟨83⟩, .primitive (.block .value), 1,
      .escaped (.failed { failure := .internal (.slotNotRead ⟨.argument, 0, 0⟩), .. }) => true
  | _, _, _, _, _, _ => false

theorem misledImage_block :
    misledImage.lookupFor (.block ⟨0⟩) "perform:inSuperclass:" = some ⟨5⟩ ∧
      (misledImage.methodAt ⟨5⟩).behavior = .primitive (.object .performInSuperclass) ∧
      misledImage.lookup ⟨31⟩ "value" = some ⟨83⟩ ∧
      (misledImage.methodAt ⟨83⟩).behavior = .primitive (.block .value) ∧
      (misledImage.blockAt ⟨0⟩).parameters = 1 ∧
      ∃ backtrace, ((Request.send "perform:inSuperclass:" (.block ⟨0⟩)
          [.symbol "value", .classObject ⟨31⟩]).serve (.ofBudget 3) temptingImage).1 =
        .escaped (.failed
          { failure := .internal (.slotNotRead ⟨.argument, 0, 0⟩), backtrace }) := by
  have shape : misleads (misledImage.lookupFor (.block ⟨0⟩) "perform:inSuperclass:")
      (misledImage.methodAt ⟨5⟩).behavior (misledImage.lookup ⟨31⟩ "value")
      (misledImage.methodAt ⟨83⟩).behavior (misledImage.blockAt ⟨0⟩).parameters
      ((Request.send "perform:inSuperclass:" (.block ⟨0⟩)
        [.symbol "value", .classObject ⟨31⟩]).serve (.ofBudget 3) temptingImage).1 = true := by
    decide +kernel
  generalize misledImage.lookupFor (.block ⟨0⟩) "perform:inSuperclass:" = found,
    (misledImage.methodAt ⟨5⟩).behavior = behavior,
    misledImage.lookup ⟨31⟩ "value" = foundToo,
    (misledImage.methodAt ⟨83⟩).behavior = behaviorToo,
    (misledImage.blockAt ⟨0⟩).parameters = count,
    ((Request.send "perform:inSuperclass:" (.block ⟨0⟩)
      [.symbol "value", .classObject ⟨31⟩]).serve (.ofBudget 3) temptingImage).1 = response
      at shape ⊢
  unfold misleads at shape
  split at shape
  · exact ⟨rfl, rfl, rfl, rfl, rfl, _, rfl⟩
  · cases shape

/-- An operation that looks a message up in a class asks for the method that it finds there. -/
theorem Asks.inSuperclass {machine : Machine} {start : Image} (selector : Selector)
    {receiver : Value} {requested : Selector} {origin : ClassRef} {method : MethodRef}
    (found : start.lookup origin requested = some method) :
    Asks (fun machine => machine.runPrimitive (.object .performInSuperclass) selector
      [receiver, .symbol requested, .classObject origin]) machine start
      (.method method [receiver]) start := by
  intro other _ escape left passes escaped
  have run : (Primitive.object .performInSuperclass).run other
      [receiver, .symbol requested, .classObject origin] start = .error escape left := by
    simp only [Primitive.run, ObjectOperation.run, Eval.get_bind, found]
    exact escaped
  dsimp only
  rw [runPrimitive_eq]
  simp only [Bind.bind, EStateM.bind, run, Eval.attempted_of_passes passes]

/-- The operation that looks the message up asks for the operation that is found, and this one for
the block. -/
theorem misledSession_underway : misledSession.Underway
    [⟨1, .block ⟨0⟩ [], misledImage⟩, ⟨2, .method ⟨83⟩ [.block ⟨0⟩], misledImage⟩,
      ⟨3, .method ⟨5⟩ [.block ⟨0⟩, .symbol "value", .classObject ⟨31⟩], misledImage⟩] := by
  obtain ⟨performs, performing, finds, calling, -⟩ := misledImage_block
  have serves : misledSession.Serves (.send "perform:inSuperclass:" (.block ⟨0⟩)
      [.symbol "value", .classObject ⟨31⟩]) temptingImage := by
    unfold misledSession misledRequests temptingImage Session.Serves
    simp only [Session.fresh]
    exact .tail (.tail (.tail .head))
  exact .nested (.nested (.first serves rfl (asks_meet_iff.mpr (.send performs _)))
    (.operation rfl performing (.inSuperclass _ finds))) (.operation rfl calling (.value _ _))

theorem misledRequests_admissible : Request.Throughout (.ofBudget 3)
    (fun image request => request.Admissible image) misledRequests
    (.initial .plain .standard false) := by
  decide +kernel

/-- A block that takes an argument is run without one, in a session in which nothing is done but
messages sent, and the host is told that the slot of the argument is not there. -/
theorem block_misses_its_argument :
    (∀ request ∈ misledRequests, request.isOrdinary = true) ∧
      Request.Throughout (.ofBudget 3) (fun image request => request.Admissible image)
        misledRequests (.initial .plain .standard false) ∧
      (¬ ∀ running below, misledSession.Underway (running :: below) →
        ∀ block arguments, running.activation = .block block arguments →
          arguments.length = (running.image.blockAt block).parameters) ∧
      ∃ backtrace, ((Request.send "perform:inSuperclass:" (.block ⟨0⟩)
          [.symbol "value", .classObject ⟨31⟩]).serve (.ofBudget 3) temptingImage).1 =
        .escaped (.failed
          { failure := .internal (.slotNotRead ⟨.argument, 0, 0⟩), backtrace }) := by
  obtain ⟨-, -, -, -, takes, told⟩ := misledImage_block
  refine ⟨by decide, misledRequests_admissible, fun counted => ?_, told⟩
  have length := counted _ _ misledSession_underway ⟨0⟩ [] rfl
  dsimp only at length
  rw [takes] at length
  cases length

/-- The operation that called the block was misapplied, and what asked for it gets around lookups.
A block that is called by a message found for it gets what it takes. -/
theorem blocks_get_their_arguments_misled :
    Running.Misapplies ⟨2, .method ⟨83⟩ [.block ⟨0⟩], misledImage⟩ ⟨0⟩ 0 ∧
      (let opener : Running :=
        ⟨3, .method ⟨5⟩ [.block ⟨0⟩, .symbol "value", .classObject ⟨31⟩], misledImage⟩
      opener.Forces ∨ opener.SendsSuper) ∧
      (callingImage.blockAt ⟨0⟩).parameters = 0 := by
  have looking : ∀ request ∈ misledRequests, request.looksUp = true := by decide
  obtain ⟨-, causes, -⟩ := @blocks_get_their_arguments .plain .standard false 3 misledRequests
    looking misledRequests_admissible
  have moment := misledSession_underway
  obtain ⟨-, -, -, -, takes, -⟩ := misledImage_block
  have misapplies : Running.Misapplies ⟨2, .method ⟨83⟩ [.block ⟨0⟩], misledImage⟩ ⟨0⟩ 0 := by
    rcases (causes _ _ moment).1 ⟨0⟩ [] rfl with counted | ⟨opener, rest, same, misapplies⟩
    · dsimp only at counted
      rw [takes] at counted
      cases counted
    · cases same
      exact misapplies
  refine ⟨misapplies, ?_, ?_⟩
  · cases moment with
    | nested moment _ =>
        obtain ⟨opener, rest, same, forces⟩ := (causes _ _ moment).2 ⟨0⟩ 0 misapplies
        cases same
        exact forces
  · have lookingToo : ∀ request ∈ keepingRequests, request.looksUp = true := by decide
    have admissible : Request.Throughout (.ofBudget 2)
        (fun image request => request.Admissible image) keepingRequests
        (.initial .plain .standard false) := by decide +kernel
    obtain ⟨-, -, counted⟩ := blocks_get_their_arguments lookingToo admissible
    have length := counted (by decide) keepingSession_avoids _ _ keepingSession_calls ⟨0⟩ [] rfl
    dsimp only [List.length_nil] at length
    exact length.symm

end MessageMachine
