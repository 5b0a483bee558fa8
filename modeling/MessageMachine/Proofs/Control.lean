import MessageMachine.Proofs.Correspondence.Reversal
import MessageMachine.Proofs.Lowering

/-!
# Control messages that are run without a send

A machine that specializes control messages runs them on the spot where the operands are booleans
and blocks.  As long as such messages would be answered by the operations that booleans and blocks
come with, nothing else changes: a session gets the same responses, and leaves an image that no
program can tell from the one of a machine that sends them.

The two machines need different budgets.  A control message that is sent takes an activation more
than one that is run on the spot, so that twice the budget is enough for the machine that sends, and
the same budget is enough for the other one.
-/

namespace MessageMachine

namespace ControlMessage

/-- The operation that a control message stands for. -/
def operation : ControlMessage → Primitive
  | .ifTrue => .boolean .ifTrue
  | .ifFalse => .boolean .ifFalse
  | .ifTrueIfFalse => .boolean .ifTrueIfFalse
  | .ifFalseIfTrue => .boolean .ifFalseIfTrue
  | .whileTrue => .block .whileTrue
  | .whileFalse => .block .whileFalse

/-- The classes of the receivers for which a control message can be run on the spot. -/
def receivers (core : CoreClasses) : ControlMessage → List ClassRef
  | .whileTrue => [core.block1]
  | .whileFalse => [core.block1]
  | _ => [core.trueClass, core.falseClass]

theorem classOf_boolean_mem (image : Image) (truth : Bool) :
    image.classOf (.boolean truth) ∈ [image.core.trueClass, image.core.falseClass] := by
  cases truth <;> simp [Image.classOf]

section Blocks

variable {image : Image} {ref condition body : BlockRef}

theorem classOf_block_mem (none : (image.blockAt ref).parameters = 0) :
    image.classOf (.block ref) ∈ [image.core.block1] := by
  simp [Image.classOf, none, CoreClasses.blockOf]

/-- A branch runs a block that takes no arguments. -/
theorem branch_eq_activate (machine : Machine) (none : (image.blockAt ref).parameters = 0) :
    machine.branch (.block ref) image = machine.activate (.block ref []) image := by
  unfold Machine.branch
  change (if (image.blockAt ref).parameters = 0 then _ else _ : Eval Value) image = _
  rw [if_pos none]

theorem runLoop_eq_loop (machine : Machine) (operation : BlockOperation) (expected : Bool)
    (first : (image.blockAt condition).parameters = 0)
    (second : (image.blockAt body).parameters = 0) :
    BlockOperation.runLoop machine operation expected condition body image =
      machine.loop condition body expected machine.patience image := by
  unfold BlockOperation.runLoop
  change (if (image.blockAt condition).parameters = 0 ∧ (image.blockAt body).parameters = 0
    then _ else _ : Eval Value) image = _
  rw [if_pos ⟨first, second⟩]

end Blocks

/-- A control message that can be run on the spot does what its operation does. -/
theorem run_eq_operation {machine : Machine} {image : Image} {message : ControlMessage}
    {receiver : Value} {operands : List Value} {run : Eval Value}
    (runs : message.run? machine image receiver operands = some run) :
    message.operation.run machine (receiver :: operands) image = run image ∧
      image.classOf receiver ∈ message.receivers image.core := by
  unfold run? at runs
  dsimp only at runs
  split at runs
  · next truth body =>
      split at runs
      · next none =>
          cases runs
          refine ⟨?_, classOf_boolean_mem image truth⟩
          cases truth with
          | true => exact branch_eq_activate machine none
          | false => rfl
      · cases runs
  · next truth body =>
      split at runs
      · next none =>
          cases runs
          refine ⟨?_, classOf_boolean_mem image truth⟩
          cases truth with
          | true => rfl
          | false => exact branch_eq_activate machine none
      · cases runs
  · next truth first second =>
      split at runs
      · next none =>
          cases runs
          refine ⟨?_, classOf_boolean_mem image truth⟩
          cases truth with
          | true => exact branch_eq_activate machine none.1
          | false => exact branch_eq_activate machine none.2
      · cases runs
  · next truth first second =>
      split at runs
      · next none =>
          cases runs
          refine ⟨?_, classOf_boolean_mem image truth⟩
          cases truth with
          | true => exact branch_eq_activate machine none.2
          | false => exact branch_eq_activate machine none.1
      · cases runs
  · next condition body =>
      split at runs
      · next none =>
          cases runs
          exact ⟨runLoop_eq_loop machine .whileTrue true none.1 none.2, classOf_block_mem none.1⟩
      · cases runs
  · next condition body =>
      split at runs
      · next none =>
          cases runs
          exact ⟨runLoop_eq_loop machine .whileFalse false none.1 none.2, classOf_block_mem none.1⟩
      · cases runs
  · cases runs

end ControlMessage

namespace Machine

variable {machine : Machine} {image after : Image} {operation : Primitive} {selector : Selector}
  {arguments : List Value}

/-- A method that stands for an operation runs it. -/
theorem activate_primitive {budget : Nat} {ref : MethodRef}
    (behavior : (image.methodAt ref).behavior = .primitive operation) :
    (ofBudget (budget + 1)).activate (.method ref arguments) image =
      (ofBudget budget).runPrimitive operation (image.methodAt ref).selector arguments image := by
  change (ofBudget budget).invoke ref arguments image = _
  unfold invoke
  rw [Eval.get_bind, behavior]

/-- The value of an operation is the value of the method that stands for it. -/
theorem runPrimitive_ok {value : Value}
    (ran : operation.run machine arguments image = .ok value after) :
    machine.runPrimitive operation selector arguments image = .ok value after := by
  unfold runPrimitive
  rw [ran]

/-- An escape from an operation is one from the method that stands for it, unless the operation
reports arguments of the wrong kinds. -/
theorem runPrimitive_error {escape : Escape}
    (ran : operation.run machine arguments image = .error escape after) {witness : Image}
    (settled : escape.Settled witness) :
    machine.runPrimitive operation selector arguments image = .error escape after := by
  unfold runPrimitive
  rw [ran]
  split
  · next reported =>
      cases reported
      exact absurd rfl (settled _)
  · rfl

/-- A control message is run on the spot or sent, and before it is sent its site may settle. -/
theorem controlAt_cases (machine : Machine) (controlSite : ControlSiteRef)
    (message : ControlMessage) (site : CallSiteRef) (selector : Selector) (receiver : Value)
    (operands : List Value) (image : Image) :
    (machine.controlAt controlSite message site selector receiver operands image =
        machine.sendAt site selector receiver operands image) ∨
      (∃ describe, machine.controlAt controlSite message site selector receiver operands image =
        machine.sendAt site selector receiver operands
          ((image.generalizeControl controlSite).note describe)) ∨
      ∃ run, message.run? machine image receiver operands = some run ∧
        machine.controlAt controlSite message site selector receiver operands image =
          run image := by
  unfold controlAt
  rw [Eval.get_bind]
  cases image.sites.controls.get controlSite with
  | generic => exact Or.inl rfl
  | specialized =>
      cases message.run? machine image receiver operands with
      | none => exact Or.inr (Or.inl ⟨_, rfl⟩)
      | some run => exact Or.inr (Or.inr ⟨run, rfl, rfl⟩)

end Machine

instance (behavior : Behavior) (operation : Primitive) :
    Decidable (behavior = .primitive operation) :=
  match behavior with
  | .primitive other => decidable_of_iff (other = operation) ⟨congrArg _, Behavior.primitive.inj⟩
  | .defined _ => .isFalse nofun
  | .missing _ => .isFalse nofun

namespace Image

/-- Whether a message to the instances of a class is answered with an operation. -/
def Binds (image : Image) (ref : ClassRef) (selector : Selector) (operation : Primitive) : Prop :=
  ∃ method, image.lookup ref selector = some method ∧
    (image.methodAt method).behavior = .primitive operation

instance (image : Image) (ref : ClassRef) (selector : Selector) (operation : Primitive) :
    Decidable (image.Binds ref selector operation) :=
  decidable_of_iff (∃ method ∈ image.lookup ref selector,
    (image.methodAt method).behavior = .primitive operation) Iff.rfl

/-- Whether control messages to booleans and blocks are answered with the operations that these come
with. -/
def Intact (image : Image) : Prop :=
  ∀ message ∈ ControlMessage.all, ∀ ref ∈ message.receivers image.core,
    image.Binds ref message.selector message.operation

instance (image : Image) : Decidable image.Intact :=
  inferInstanceAs (Decidable (∀ message ∈ ControlMessage.all, ∀ ref ∈ message.receivers image.core,
    image.Binds ref message.selector message.operation))

variable {base : Nat} {image other after afterToo : Image}

theorem Intact.binds (intact : image.Intact) (message : ControlMessage) {ref : ClassRef}
    (member : ref ∈ message.receivers image.core) :
    image.Binds ref message.selector message.operation := by
  refine intact message ?_ ref member
  cases message <;> simp [ControlMessage.all]

theorem has_receivers (formed : image.WellFormed) {message : ControlMessage} {ref : ClassRef}
    (member : ref ∈ message.receivers image.core) : image.classes.Has ref := by
  apply formed.within.core
  cases message <;> simp [ControlMessage.receivers] at member <;>
    rcases member with rfl | rfl <;> simp [CoreClasses.inOrder]

/-- Where control messages are answered as they should be, sending one for which there is something
to run comes to invoking a method that stands for its operation. -/
theorem Intact.sendAt (intact : image.Intact) (attuned : image.Attuned base)
    (few : image.methods.size < base + UInt32.size) {message : ControlMessage} {site : CallSiteRef}
    (sends : image.Sends site message.selector) {receiver : Value}
    (member : image.classOf receiver ∈ message.receivers image.core) (machine : Machine)
    (operands : List Value) :
    ∃ method, ((image.lookupAt site message.selector receiver).2.methodAt method).behavior =
        .primitive message.operation ∧
      machine.sendAt site message.selector receiver operands image =
        machine.activate (.method method (receiver :: operands))
          (image.lookupAt site message.selector receiver).2 := by
  obtain ⟨method, found, bound⟩ := intact.binds message member
  refine ⟨method, ?_, ?_⟩
  · obtain ⟨calls, journal, -, result⟩ := image.lookupAt_eq site message.selector receiver
    rw [result]
    exact bound
  · unfold Machine.sendAt
    rw [Eval.modifyGet_bind, attuned.lookupAt few sends, lookupFor, found]
    rfl

/-- Where the dictionaries stay the same, control messages go on being answered. -/
theorem Intact.carry (intact : image.Intact) (sound : image.Sound base)
    (registry : image.SameRegistry after) (methods : after.methods = image.methods) :
    after.Intact := by
  intro message member ref receives
  rw [registry.core] at receives
  obtain ⟨method, found, bound⟩ := intact message member ref receives
  refine ⟨method, ?_, ?_⟩
  · rw [registry.lookup sound.formed sound.attuned.rooted (has_receivers sound.formed receives)]
    exact found
  · rw [methodAt, methods]
    exact bound

/-- Control messages are answered alike on both sides. -/
theorem Lowers.intact_iff (lowers : image.Lowers base other) : other.Intact ↔ image.Intact := by
  have behaviors : ∀ method operation, (other.methodAt method).behavior = .primitive operation ↔
      (image.methodAt method).behavior = .primitive operation := by
    intro method operation
    rw [lowers.methods, Method.plain]
    cases (image.methodAt method).behavior with
    | defined routine => exact ⟨nofun, nofun⟩
    | primitive primitive => exact Iff.rfl
    | missing title => exact Iff.rfl
  simp only [Intact, Binds, lowers.alike.core, lowers.alike.lookup, behaviors]

/-- Whether two images can be in use side by side: control messages are answered as they should be,
and there were not too many installations for the send sites to tell. -/
structure Runs (base : Nat) (image other : Image) : Prop where
  lowers : image.Lowers base other
  intact : image.Intact
  few : image.methods.size < base + UInt32.size

namespace Runs

/-- Steps that leave the dictionaries alone. -/
theorem step (runs : image.Runs base other) (lowers : after.Lowers base afterToo)
    (registry : image.SameRegistry after) (methods : after.methods = image.methods) :
    after.Runs base afterToo where
  lowers := lowers
  intact := runs.intact.carry runs.lowers.sound registry methods
  few := by
    rw [methods]
    exact runs.few

theorem fewToo (runs : image.Runs base other) : other.methods.size < base + UInt32.size := by
  rw [runs.lowers.alike.methodCount]
  exact runs.few

/-- Sends find the same, whatever the sites remember. -/
theorem lookupAt (runs : image.Runs base other) {site : CallSiteRef} {selector : Selector}
    (sends : image.Sends site selector) (receiver : Value) :
    (other.lookupAt site selector receiver).1 = (image.lookupAt site selector receiver).1 := by
  rw [runs.lowers.sound.attuned.lookupAt runs.few sends,
    runs.lowers.soundToo.attuned.lookupAt runs.fewToo (runs.lowers.sends_iff.mpr sends),
    runs.lowers.alike.lookupFor]

theorem lookupSuperAt (runs : image.Runs base other) {site : CallSiteRef} {origin : ClassRef}
    {selector : Selector} (sends : image.SendsSuper site origin selector) :
    (other.lookupSuperAt site origin selector).1 =
      (image.lookupSuperAt site origin selector).1 := by
  rw [runs.lowers.sound.attuned.lookupSuperAt runs.few sends,
    runs.lowers.soundToo.attuned.lookupSuperAt runs.fewToo (runs.lowers.sendsSuper_iff.mpr sends),
    runs.lowers.alike.lookup]

end Runs

end Image

namespace Correspondence

/-- A machine that specializes control messages, and one that does not. -/
def lowering (base : Nat) : Correspondence where
  Stage := { images : Image × Image // images.1.Runs base images.2 }
  first stage := stage.val.1
  second stage := stage.val.2
  Later stage after := stage.val.1.Extends after.val.1 ∧ stage.val.2.Extends after.val.2
  Fits stage _ code other := other = code.plain ∧ ∀ node ∈ code.outline, stage.val.1.Outlines node
  lenient := True

/-- Nothing is said about a machine without a budget. -/
theorem Partners.exhausted {C : Correspondence} (lenient : C.lenient) (budget : Nat) :
    C.Partners (.ofBudget 0) (.ofBudget budget) where
  activate := fun _ => .tired lenient
  patience := Or.inr ⟨lenient, Nat.zero_le budget⟩

/-- Interpreters make up machines that have one activation more to spend. -/
theorem Interpreters.partners {C : Correspondence} {budget budgetToo : Nat}
    (interpreters : C.Interpreters (.ofBudget budget) (.ofBudget budgetToo)) (laws : C.Laws)
    (lenient : C.lenient) (enough : budget ≤ budgetToo) :
    C.Partners (.ofBudget (budget + 1)) (.ofBudget (budgetToo + 1)) where
  activate := fun known => step_evaluates laws interpreters known
  patience := Or.inr ⟨lenient, Nat.succ_le_succ enough⟩

/-- What agrees with an operation agrees with the method that stands for it. -/
theorem Agrees.runPrimitive {C : Correspondence} {stage : C.Stage} {machine : Machine}
    {operation : Primitive} {selector : Selector} {arguments : List Value} {image : Image}
    {result : EStateM.Result Escape Image Value}
    (agreed : C.Agrees Value.Exists Escape.Settled stage result
      (operation.run machine arguments image)) :
    C.Agrees Value.Exists Escape.Settled stage result
      (machine.runPrimitive operation selector arguments image) := by
  generalize ran : operation.run machine arguments image = resultToo at agreed
  cases agreed with
  | ok later known =>
      rw [Machine.runPrimitive_ok ran]
      exact .ok later known
  | error later settled =>
      rw [Machine.runPrimitive_error ran settled]
      exact .error later settled
  | tired lenient => exact .tired lenient

namespace Lowering

variable {base : Nat}

/-- Two steps that keep the images side by side. -/
theorem reached (stage : (lowering base).Stage) {first second : Image}
    (lowers : first.Lowers base second) (extended : stage.val.1.Extends first)
    (extendedToo : stage.val.2.Extends second) (registry : stage.val.1.SameRegistry first)
    (methods : first.methods = stage.val.1.methods) :
    ∃ after, (lowering base).Reached stage first second after :=
  ⟨⟨(first, second), stage.property.step lowers registry methods⟩, ⟨extended, extendedToo⟩, rfl,
    rfl⟩

theorem fitAll {stage : (lowering base).Stage} {frame : FrameRef} {codes : List Code}
    (provided : ∀ node ∈ Code.outlineAll codes, stage.val.1.Outlines node) :
    List.Forall₂ ((lowering base).Fits stage frame) codes (Code.plainAll codes) := by
  induction codes with
  | nil => exact .nil
  | cons code rest inductionHypothesis =>
      refine .cons ⟨rfl, fun node found => ?_⟩ (inductionHypothesis fun node found => ?_)
      · exact provided node (List.mem_append_left _ found)
      · exact provided node (List.mem_append_right _ found)

theorem makeBlock (stage : (lowering base).Stage) {closure : Closure}
    (provided : stage.val.1.Provides closure.body) :
    ∃ after, (lowering base).Reached stage (stage.val.1.addBlock closure)
      (stage.val.2.addBlock closure.plain) after := by
  have lowers := stage.property.lowers.addBlock provided
  refine reached stage lowers (@Action.extends_perform stage.val.1 (.makeBlock closure) provided)
    ?_ (.of_eq rfl rfl) rfl
  exact { Image.Extends.refl stage.val.2 with blocks := by simp [Image.addBlock] }

theorem paired {stage : (lowering base).Stage} {frame : FrameRef} {code other : Code}
    (fits : (lowering base).Fits stage frame code other) :
    (lowering base).Paired stage frame code other := by
  obtain ⟨rfl, provided⟩ := fits
  have lowers := stage.property.lowers
  have receiver : (lowering base).SameReceiver stage frame := lowers.receivers frame
  cases code with
  | self => exact .self receiver
  | read slot => exact .read (lowers.slot? frame slot)
  | write slot value => exact .write (lowers.slotHome? frame slot) ⟨rfl, provided⟩
  | readField site index => exact .readField receiver (Or.inl (provided _ List.mem_cons_self))
  | writeField site index value =>
      exact .writeField receiver (Or.inr (provided _ List.mem_cons_self))
        ⟨rfl, fun node found => provided node (List.mem_cons_of_mem _ found)⟩
  | global name => exact .global receiver
  | literal datum => exact .literal
  | block parameters temporaries captures body =>
      exact .block (makeBlock stage fun node found =>
        provided node (List.mem_cons_of_mem _ found))
  | send site selector receiver operands =>
      refine .send (Or.inl (provided _ List.mem_cons_self)) ⟨rfl, fun node found => ?_⟩
        (fitAll fun node found => ?_)
      · exact provided node (List.mem_cons_of_mem _ (List.mem_append_left _ found))
      · exact provided node (List.mem_cons_of_mem _ (List.mem_append_right _ found))
  | superSend site origin selector operands =>
      exact .superSend receiver (provided _ List.mem_cons_self)
        (fitAll fun node found => provided node (List.mem_cons_of_mem _ found))
  | control controlSite message site selector receiver operands =>
      refine .specialized ⟨rfl, fun node found => ?_⟩ (fitAll fun node found => ?_)
      · exact provided node (List.mem_cons_of_mem _ (List.mem_append_left _ found))
      · exact provided node (List.mem_cons_of_mem _ (List.mem_append_right _ found))
  | answer value span => exact .answer (lowers.outermost frame) ⟨rfl, provided⟩

/-- The same frame is entered on both sides. -/
theorem enter (stage : (lowering base).Stage) {frame : Frame}
    (known : frame.All (·.Exists stage.val.1)) :
    ∃ after, (lowering base).Reached stage (stage.val.1.addFrame frame)
      (stage.val.2.addFrame frame) after := by
  refine reached stage (stage.property.lowers.addFrame known)
    (@Action.extends_perform stage.val.1 (.enter frame) known) ?_ (.of_eq rfl rfl) rfl
  exact { Image.Extends.refl stage.val.2 with frames := by simp [Image.addFrame] }

theorem enterMethod (stage : (lowering base).Stage) {ref : MethodRef} {routine other : Routine}
    {receiver : Value} {operands : List Value}
    (first : (stage.val.1.methodAt ref).behavior = .defined routine)
    (second : (stage.val.2.methodAt ref).behavior = .defined other)
    (known : receiver.Exists stage.val.1) (allKnown : Value.AllExist stage.val.1 operands) :
    ∃ after, (lowering base).Reached stage
      (stage.val.1.addFrame (.ofMethod ref receiver operands routine.temporaries))
      (stage.val.2.addFrame (.ofMethod ref receiver operands other.temporaries)) after ∧
      List.Forall₂ ((lowering base).Fits after stage.val.1.heap.frames.next) routine.body
        other.body := by
  have plain : other = routine.plain := by
    rw [stage.property.lowers.methods, Method.plain, first] at second
    cases second
    rfl
  subst plain
  have present : ∀ node ∈ Code.outlineAll routine.body, stage.val.1.Outlines node :=
    fun node found => ⟨ref, by simpa only [Method.body, first] using found⟩
  obtain ⟨after, taken⟩ := enter stage (Frame.all_ofMethod trivial ref known allKnown
    routine.temporaries)
  exact ⟨after, taken, fitAll fun node found => (present node found).mono taken.later.1⟩

theorem enterBlock (stage : (lowering base).Stage) {ref : BlockRef} {arguments : List Value}
    (allKnown : Value.AllExist stage.val.1 arguments) :
    ∃ after, (lowering base).Reached stage
      (stage.val.1.addFrame (stage.val.1.blockFrame ref arguments))
      (stage.val.2.addFrame (stage.val.2.blockFrame ref arguments)) after ∧
      List.Forall₂ ((lowering base).Fits after stage.val.1.heap.frames.next)
        (stage.val.1.blockAt ref).body (stage.val.2.blockAt ref).body := by
  have lowers := stage.property.lowers
  obtain ⟨after, taken⟩ := enter stage (lowers.sound.formed.all_blockFrame ref allKnown)
  rw [lowers.blockFrame, lowers.blocks]
  exact ⟨after, taken, fitAll fun node found =>
    (lowers.sound.formed.within.bodies ref node found).mono taken.later.1⟩

theorem laws : (lowering base).Laws where
  refl := fun _ => ⟨.refl _, .refl _⟩
  trans := fun ⟨extended, extendedToo⟩ ⟨later, laterToo⟩ =>
    ⟨extended.trans later, extendedToo.trans laterToo⟩
  alike := fun stage => stage.property.lowers.alike
  formed := fun stage => stage.property.lowers.sound.formed
  extended := fun later => later.1
  carry := fun later ⟨same, provided⟩ =>
    ⟨same, fun node found => (provided node found).mono later.1⟩
  paired := paired
  act := fun stage action common allowed => by
    have lowers := stage.property.lowers
    have still : action.installs = false := by
      cases action with
      | install holder selector behavior => exact common.elim
      | _ => rfl
    exact reached stage (lowers.perform common allowed) (Action.extends_perform allowed)
      (Action.extends_perform ((lowers.allowed_iff common).mpr allowed))
      (Action.sameRegistry_perform allowed common.kept still) common.sameScaffold.methods
  noted := fun stage describe => by
    have lowers := stage.property.lowers.note describe describe
    simp only [lowering]
    rw [Image.note_eq stage.val.1, Image.note_eq stage.val.2] at lowers ⊢
    exact reached stage lowers { Image.Extends.refl stage.val.1 with }
      { Image.Extends.refl stage.val.2 with } (.of_eq rfl rfl) rfl
  resolve := fun stage _ _ receiver _ sends => stage.property.lookupAt sends receiver
  resolveSuper := fun stage _ _ _ sends => stage.property.lookupSuperAt sends
  enterMethod := enterMethod
  enterBlock := fun stage _ _ _ allKnown => enterBlock stage allKnown

theorem reversible : (lowering base).Reversible where
  formed := fun stage => stage.property.lowers.soundToo.formed
  extended := fun later => later.2
  allowed := fun stage _ common => stage.property.lowers.allowed_iff common

/-- Settling a control site is not noticed on the other side. -/
theorem settled (stage : (lowering base).Stage) (site : ControlSiteRef)
    (describe : Image → Event) :
    ∃ after, (lowering base).Reached stage
      ((stage.val.1.generalizeControl site).note describe) stage.val.2 after := by
  have lowers := stage.property.lowers.settle site describe
  rw [Image.note_eq] at lowers ⊢
  exact reached stage lowers { Image.Extends.refl stage.val.1 with } (.refl _) (.of_eq rfl rfl) rfl

/-- Looking up the target of a control message is not noticed on the side that does not send it. -/
theorem resolved (stage : (lowering base).Stage) {site : CallSiteRef} {selector : Selector}
    {receiver : Value} (known : receiver.Exists stage.val.1)
    (sends : stage.val.1.Sends site selector) :
    ∃ after, (lowering base).Reached stage stage.val.1
      (stage.val.2.lookupAt site selector receiver).2 after := by
  have lowers := stage.property.lowers
  have known := (lowers.alike.exists_iff receiver).mpr known
  have sends := lowers.sends_iff.mpr sends
  exact reached stage (lowers.resolve known sends) (.refl _)
    (@Action.extends_perform stage.val.2 (.resolve site selector receiver) ⟨known, sends⟩)
    (.of_eq rfl rfl) rfl

/-- A control message that one side runs on the spot is an invocation on the other side, of a method
that stands for its operation. -/
theorem invoked (stage : (lowering base).Stage) {machine : Machine} {message : ControlMessage}
    {site : CallSiteRef} {receiver : Value} {operands : List Value} {run : Eval Value}
    (sends : stage.val.1.Sends site message.selector)
    (runs : message.run? machine stage.val.1 receiver operands = some run) (other : Machine) :
    ∃ method, ((stage.val.2.lookupAt site message.selector receiver).2.methodAt method).behavior =
        .primitive message.operation ∧
      other.sendAt site message.selector receiver operands stage.val.2 =
        other.activate (.method method (receiver :: operands))
          (stage.val.2.lookupAt site message.selector receiver).2 := by
  have lowers := stage.property.lowers
  have member := (ControlMessage.run_eq_operation runs).2
  rw [← lowers.alike.classOf, ← lowers.alike.core] at member
  exact (lowers.intact_iff.mpr stage.property.intact).sendAt lowers.soundToo.attuned
    stage.property.fewToo (lowers.sends_iff.mpr sends) member other operands

section Budgets

variable {stage : (lowering base).Stage} {controlSite : ControlSiteRef} {message : ControlMessage}
  {site : CallSiteRef} {receiver : Value} {operands : List Value} {budget budgetToo : Nat}

/-- A control message that is run on the spot does what sending it does, if the machine that sends
has an activation more to spend. -/
theorem specialized_evaluates
    (outer : (lowering base).Partners (.ofBudget budget) (.ofBudget (budgetToo + 1)))
    (inner : (lowering base).Partners (.ofBudget budget) (.ofBudget budgetToo))
    (sends : stage.val.1.Sends site message.selector) (known : receiver.Exists stage.val.1)
    (allKnown : Value.AllExist stage.val.1 operands) :
    (lowering base).Evaluates stage
      ((Machine.ofBudget budget).controlAt controlSite message site message.selector receiver
        operands)
      ((Machine.ofBudget (budgetToo + 1)).sendAt site message.selector receiver operands) := by
  change (lowering base).Agrees _ _ stage
    ((Machine.ofBudget budget).controlAt _ _ _ _ _ _ stage.val.1) _
  rcases (Machine.ofBudget budget).controlAt_cases controlSite message site message.selector
    receiver operands stage.val.1 with same | ⟨describe, same⟩ | ⟨run, runs, same⟩
  · rw [same]
    exact sendAt_evaluates laws outer sends known allKnown
  · obtain ⟨after, reached⟩ := settled stage controlSite describe
    have extended := reached.later.1
    have sent := sendAt_evaluates laws outer (sends.mono extended) (known.mono extended)
      (allKnown.mono extended)
    unfold Evaluates Matches at sent
    rw [reached.first, reached.second] at sent
    rw [same]
    exact sent.later laws reached.later
  · obtain ⟨method, bound, sent⟩ := invoked stage sends runs (.ofBudget (budgetToo + 1))
    obtain ⟨after, reached⟩ := resolved stage known sends
    have extended := reached.later.1
    have agreed := run?_evaluates laws inner message (known.mono extended) (allKnown.mono extended)
    rw [reached.first, reached.second, runs] at agreed
    generalize runsToo : message.run? (.ofBudget budgetToo) _ receiver operands = option at agreed
    cases agreed with
    | some evaluated =>
        unfold Evaluates Matches at evaluated
        rw [reached.first, reached.second,
          ← (ControlMessage.run_eq_operation runsToo).1] at evaluated
        rw [same, show (Machine.ofBudget (budgetToo + 1)).sendAt _ _ _ _
          ((lowering base).second stage) = _ from sent, Machine.activate_primitive bound]
        exact evaluated.runPrimitive.later laws reached.later

/-- A control message goes by its own selector, at a site that sends it. -/
theorem sends_of_outlined {selector : Selector}
    (outlined : stage.val.1.Outlines (.control controlSite message site selector)) :
    selector = message.selector ∧ stage.val.1.Sends site selector :=
  ⟨(stage.property.lowers.sound.formed.placed _ outlined).named,
    Or.inr ⟨controlSite, message, outlined⟩⟩

/-- Machines between which a control message is one activation. -/
theorem interpreters
    (outer : (lowering base).Partners (.ofBudget budget) (.ofBudget (budgetToo + 1)))
    (inner : (lowering base).Partners (.ofBudget budget) (.ofBudget budgetToo)) :
    (lowering base).Interpreters (.ofBudget budget) (.ofBudget (budgetToo + 1)) := {
  outer with
  specialized := fun fits known allKnown => by
    obtain ⟨rfl, sends⟩ := sends_of_outlined (fits.2 _ List.mem_cons_self)
    exact specialized_evaluates outer inner sends known allKnown
  generalized := fun fits => by cases fits.1 }

/-- Twice the budget is enough for the machine that sends control messages. -/
theorem partners (enough : 2 * budget ≤ budgetToo) :
    (lowering base).Partners (.ofBudget budget) (.ofBudget budgetToo) := by
  induction budget generalizing budgetToo with
  | zero => exact .exhausted trivial budgetToo
  | succ budget inductionHypothesis =>
      obtain ⟨less, rfl⟩ : ∃ less, budgetToo = less + 2 := ⟨budgetToo - 2, by omega⟩
      have outer : (lowering base).Partners (.ofBudget budget) (.ofBudget (less + 1)) :=
        inductionHypothesis (by omega)
      exact (interpreters outer (inductionHypothesis (by omega))).partners laws trivial (by omega)

end Budgets

/-- The two machines serving a host. -/
def hosting (base : Nat) : Hosting where
  Link := Image.Lowers base
  Ready image := image.Intact ∧ image.methods.size < base + UInt32.size
  Similar routine other := other = routine.plain
  removes := False

theorem hosting_laws : (hosting base).Laws (lowering base) where
  alike := fun link => link.alike
  formed := fun link => link.sound.formed
  staged := fun link ready => ⟨⟨(_, _), link, ready.1, ready.2⟩, rfl, rfl⟩
  linked := @fun _ after _ _ => after.property.lowers
  noted := fun link describe => link.note describe describe
  bound := fun link name _ known => link.setGlobal name known
  registered := fun link name _ fields classFields known =>
    link.register name fields classFields known
  installed := fun link _ selector _ known bodiless => link.installBodiless selector known bodiless
  prepared := fun {image other} link holder definition known => by
    have prepared := link.prepare definition known
    generalize Image.prepareMethod holder definition image = result at prepared ⊢
    generalize Image.prepareMethod holder definition other = resultToo at prepared ⊢
    cases prepared with
    | ok lowers present installed => exact .ok rfl lowers present installed
    | error lowers => exact .error lowers
  detached := fun link block _ => link.detach block
  removed := False.elim

end Lowering

end Correspondence

namespace Response

/-- Whether a request used up the budget. -/
def isExhausted : Response → Bool
  | .escaped .exhausted => true
  | _ => false

/-- The response with plain code.  Only preparing a method shows code to a host. -/
def plain : Response → Response
  | .prepared routine => .prepared routine.plain
  | response => response

end Response

namespace Correspondence.Hosting

variable {H : Hosting}

/-- Responses that agree are the same up to plain code if routines are. -/
theorem Answers.plain (similar : ∀ routine other, H.Similar routine other →
      other.plain = routine.plain)
    {response other : Response} (agreed : H.Answers response other) :
    other.plain = response.plain := by
  rcases agreed with ⟨-, rfl⟩ | ⟨routine, routineToo, rfl, rfl, alike⟩
  · rfl
  · exact congrArg Response.prepared (similar routine routineToo alike)

theorem map_plain_of_answers (similar : ∀ routine other, H.Similar routine other →
      other.plain = routine.plain)
    {responses others : List Response} (agreed : List.Forall₂ H.Answers responses others) :
    others.map Response.plain = responses.map Response.plain := by
  induction agreed with
  | nil => rfl
  | cons first _ inductionHypothesis =>
      rw [List.map_cons, List.map_cons, first.plain similar, inductionHypothesis]

end Correspondence.Hosting

namespace Request

/-- Whether every request of a session is served within the budget. -/
def Finishes (machine : Machine) (requests : List Request) (start : Image) : Prop :=
  ∀ response ∈ (serveAll machine requests start).1, response.isExhausted = false

instance (machine : Machine) (requests : List Request) (start : Image) :
    Decidable (Finishes machine requests start) :=
  inferInstanceAs (Decidable (∀ response ∈ (serveAll machine requests start).1,
    response.isExhausted = false))

/-- Whether control messages to booleans and blocks are answered as they should be throughout a
session.  The session mentions existing things only, takes no methods out of dictionaries, and comes
with fewer installations than there are words. -/
def Undisturbed (machine : Machine) (requests : List Request) (start : Image) : Prop :=
  Throughout machine (fun image request => request.Admissible image ∧ request.removes = false ∧
    image.Intact ∧ image.methods.size < start.methods.size + UInt32.size) requests start

instance (machine : Machine) (requests : List Request) (start : Image) :
    Decidable (Undisturbed machine requests start) :=
  inferInstanceAs (Decidable (Throughout machine _ requests start))

theorem Throughout.imp {machine : Machine} {condition weaker : Image → Request → Prop}
    (weakened : ∀ image request, condition image request → weaker image request)
    {requests : List Request} {image : Image}
    (throughout : Throughout machine condition requests image) :
    Throughout machine weaker requests image := by
  induction requests generalizing image with
  | nil => trivial
  | cons request rest inductionHypothesis =>
      exact ⟨weakened image request throughout.1, inductionHypothesis throughout.2⟩

theorem Undisturbed.serves {machine : Machine} {requests : List Request} {start : Image}
    (undisturbed : Undisturbed machine requests start) :
    Throughout machine (Correspondence.Lowering.hosting start.methods.size).Serves requests start :=
  undisturbed.imp fun _ _ ⟨admissible, kept, ready⟩ =>
    ⟨admissible, fun removes => Bool.false_ne_true (kept.symm.trans removes), ready⟩

theorem Finishes.ne_exhausted {machine : Machine} {requests : List Request} {start : Image}
    (finished : Finishes machine requests start) :
    ∀ response ∈ (serveAll machine requests start).1, response ≠ .escaped .exhausted := by
  rintro response member rfl
  exact absurd (finished _ member) (by decide)

end Request

section Sessions

open Correspondence

variable {base budget budgetToo : Nat} {requests : List Request} {start startToo : Image}

/-- A session where control messages are run on the spot, compared with one where they are sent. -/
theorem Image.Lowers.session (link : start.Lowers start.methods.size startToo)
    (undisturbed : Request.Undisturbed (.ofBudget budget) requests start)
    (finished : Request.Finishes (.ofBudget budget) requests start)
    (enough : 2 * budget ≤ budgetToo) :
    let outcome := Request.serveAll (.ofBudget budget) requests start
    let other := Request.serveAll (.ofBudget budgetToo) requests startToo
    other.1.map Response.plain = outcome.1.map Response.plain ∧ outcome.2.Resembles other.2 := by
  obtain ⟨responses, final⟩ := Hosting.serveAll_served Lowering.hosting_laws Lowering.laws
    (Lowering.partners enough) requests link undisturbed.serves fun _ => finished.ne_exhausted
  refine ⟨Hosting.map_plain_of_answers ?_ responses, final.alike⟩
  rintro routine _ rfl
  exact routine.plain_plain

end Sessions

end MessageMachine
