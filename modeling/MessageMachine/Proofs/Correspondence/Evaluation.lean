import MessageMachine.Proofs.Correspondence.Sending

/-!
# Evaluating code side by side

Expressions that fit each other are evaluated alike by interpreters.  The proof follows the code of
the first machine; each case takes the pair of expressions apart, evaluates the operands, and then
uses one law of the correspondence.
-/

namespace MessageMachine

namespace Image

variable {image : Image}

/-- What a field holds exists. -/
theorem WellFormed.contains (formed : image.WellFormed) : image.Contains (·.Exists image) where
  classValues := formed.within.classValues
  objects := formed.within.contents

/-- What a slot holds exists. -/
theorem WellFormed.exists_of_slot? (formed : image.WellFormed) {frame : FrameRef} {slot : Slot}
    {value : Value} (found : image.slot? frame slot = some value) : value.Exists image := by
  unfold Image.slot? at found
  split at found
  · next home _ =>
      have frames := formed.within.frames home
      unfold Frame.slot? at found
      split at found
      · exact frames.arguments value (Array.mem_of_getElem? found)
      · exact frames.temporaries value (Array.mem_of_getElem? found)
  · cases found

/-- What a global name is bound to exists. -/
theorem WellFormed.exists_of_global? (formed : image.WellFormed) {name : String} {value : Value}
    (found : image.global? name = some value) : value.Exists image :=
  formed.within.globals value (Dictionary.mem_values_of_find? found)

theorem Sends.mono {before after : Image} {site : CallSiteRef} {selector : Selector}
    (sends : before.Sends site selector) (later : before.Extends after) :
    after.Sends site selector :=
  sends.imp (·.mono later) fun ⟨controlSite, message, outlined⟩ =>
    ⟨controlSite, message, outlined.mono later⟩

end Image

/-- Whether a value, if there is one, exists. -/
def Value.SomeExists (image : Image) (answer : Option Value) : Prop :=
  ∀ value, answer = some value → value.Exists image

namespace Correspondence

variable {C : Correspondence} {stage : C.Stage}

namespace Laws

variable (laws : C.Laws)
include laws

theorem receiver_exists (stage : C.Stage) (frame : FrameRef) :
    ((C.first stage).frameAt frame).receiver.Exists (C.first stage) :=
  ((laws.formed stage).within.frames frame).receiver

mutual

theorem datum {fine : Image → Escape → Prop} {stage : C.Stage} (datum : Datum) :
    C.Matches Value.Exists fine stage datum.evaluate datum.evaluate := by
  cases datum with
  | array items =>
      refine Matches.bind laws (dataAll items) fun after later values known => ?_
      exact laws.makeArray fun value member => known value (List.mem_toArray.mp member)
  | _ => exact Matches.pure laws trivial

theorem dataAll {fine : Image → Escape → Prop} {stage : C.Stage} (items : List Datum) :
    C.Matches Value.AllExist fine stage (Datum.evaluateAll items) (Datum.evaluateAll items) := by
  cases items with
  | nil => exact Matches.pure laws (.nil _)
  | cons item rest =>
      refine Matches.bind laws (datum item) fun after later value known => ?_
      refine Matches.bind laws (dataAll rest) fun final further values allKnown => ?_
      exact Matches.pure laws (.cons (laws.mono further known) allKnown)

end

theorem setSlot {fine : Image → Escape → Prop} (home : FrameRef) (kind : SlotKind) (index : Nat)
    {value : Value} (known : value.Exists (C.first stage)) :
    C.Matches (fun _ _ => True) fine stage
      (Eval.modifyFrame home fun frame => frame.setSlot kind index value)
      (Eval.modifyFrame home fun frame => frame.setSlot kind index value) :=
  laws.perform (.setSlot home kind index value) trivial known rfl rfl rfl
    fun _ _ _ => trivial

theorem readFieldAt {fine : Image → Escape → Prop} {site : FieldSiteRef} {index : Nat}
    {receiver : Value} (known : receiver.Exists (C.first stage))
    (accesses : (C.first stage).AccessesField site index) :
    C.Matches Value.SomeExists fine stage
      (modifyGet fun image => image.readFieldAt site receiver index)
      (modifyGet fun image => image.readFieldAt site receiver index) := by
  refine laws.perform (.readFieldAt site receiver index) trivial ⟨known, accesses⟩
    rfl rfl ((laws.alike stage).readFieldAt site receiver index)
    fun after later _ value found => ?_
  exact laws.mono later (Image.readFieldAt_good (fun _ plain _ => plain.exists _)
    (laws.formed stage).contains found)

theorem writeFieldAt {fine : Image → Escape → Prop} {site : FieldSiteRef} {index : Nat}
    {receiver value : Value} (known : receiver.Exists (C.first stage))
    (valueKnown : value.Exists (C.first stage))
    (accesses : (C.first stage).AccessesField site index) :
    C.Matches (fun _ _ => True) fine stage
      (modifyGet fun image => image.writeFieldAt site receiver index value)
      (modifyGet fun image => image.writeFieldAt site receiver index value) :=
  laws.perform (.writeFieldAt site receiver index value) trivial
    ⟨known, valueKnown, accesses⟩ rfl rfl
    ((laws.alike stage).writeFieldAt site receiver index value) fun _ _ _ => trivial

end Laws

section Machines

variable {machine other : Machine} (laws : C.Laws) (partners : C.Partners machine other)
include laws partners

theorem loop_evaluates {condition body : BlockRef} (expected : Bool) {rounds roundsToo : Nat}
    (enough : roundsToo = rounds ∨ C.lenient ∧ rounds ≤ roundsToo)
    (conditionKnown : (C.first stage).heap.blocks.Has condition)
    (bodyKnown : (C.first stage).heap.blocks.Has body) :
    C.Evaluates stage (machine.loop condition body expected rounds)
      (other.loop condition body expected roundsToo) := by
  induction rounds generalizing stage roundsToo with
  | zero =>
      rcases enough with rfl | ⟨lenient, -⟩
      · exact Matches.throw laws trivial
      · exact .tired lenient
  | succ rounds inductionHypothesis =>
      obtain ⟨fewer, rfl⟩ : ∃ fewer, roundsToo = fewer + 1 := ⟨roundsToo - 1, by omega⟩
      refine Matches.bind laws (partners.block conditionKnown (.nil _))
        fun tested later value _ => ?_
      have blocks := (laws.extended later).blocks
      cases value with
      | boolean truth =>
          dsimp only
          split
          · refine Matches.bind laws
              (partners.block (Nat.lt_of_lt_of_le bodyKnown blocks) (.nil _))
              fun ran further _ _ => ?_
            have moreBlocks := Nat.le_trans blocks (laws.extended further).blocks
            exact inductionHypothesis
              (enough.imp Nat.succ.inj fun fewer => ⟨fewer.1, Nat.le_of_succ_le_succ fewer.2⟩)
              (Nat.lt_of_lt_of_le conditionKnown moreBlocks)
              (Nat.lt_of_lt_of_le bodyKnown moreBlocks)
          · exact Matches.pure laws trivial
      | _ => exact Matches.pure laws trivial

theorem run?_evaluates (message : ControlMessage) {receiver : Value} {operands : List Value}
    (known : receiver.Exists (C.first stage))
    (allKnown : Value.AllExist (C.first stage) operands) :
    Option.Rel (C.Evaluates stage) (message.run? machine (C.first stage) receiver operands)
      (message.run? other (C.second stage) receiver operands) := by
  have same := (laws.alike stage).parameters
  have quiet : C.Evaluates stage (pure .nil) (pure .nil) := Matches.pure laws trivial
  have call : ∀ {block}, (C.first stage).heap.blocks.Has block →
      C.Evaluates stage (machine.activate (.block block [])) (other.activate (.block block [])) :=
    fun present => partners.block present (.nil _)
  unfold ControlMessage.run?
  simp only [same]
  split
  · split
    · refine .some ?_
      split
      · exact call allKnown.head
      · exact quiet
    · exact .none
  · split
    · refine .some ?_
      split
      · exact quiet
      · exact call allKnown.head
    · exact .none
  · split
    · refine .some (call ?_)
      split
      · exact allKnown.head
      · exact allKnown.tail.head
    · exact .none
  · split
    · refine .some (call ?_)
      split
      · exact allKnown.tail.head
      · exact allKnown.head
    · exact .none
  · split
    · exact .some (loop_evaluates laws partners true partners.patience known allKnown.head)
    · exact .none
  · split
    · exact .some (loop_evaluates laws partners false partners.patience known allKnown.head)
    · exact .none
  · exact .none

theorem controlAt_evaluates {controlSite : ControlSiteRef} {message : ControlMessage}
    {site : CallSiteRef} {selector : Selector} {receiver : Value} {operands : List Value}
    (sameState : (C.second stage).sites.controls.get controlSite =
      (C.first stage).sites.controls.get controlSite)
    (sends : (C.first stage).Sends site selector) (known : receiver.Exists (C.first stage))
    (allKnown : Value.AllExist (C.first stage) operands) :
    C.Evaluates stage (machine.controlAt controlSite message site selector receiver operands)
      (other.controlAt controlSite message site selector receiver operands) := by
  refine Matches.get ?_
  rw [sameState]
  cases (C.first stage).sites.controls.get controlSite with
  | generic => exact sendAt_evaluates laws partners sends known allKnown
  | specialized =>
      dsimp only
      have agreed := run?_evaluates laws partners message known allKnown
      generalize message.run? machine (C.first stage) receiver operands = run at agreed
      generalize message.run? other (C.second stage) receiver operands = runToo at agreed
      cases agreed with
      | some evaluated => exact evaluated
      | none =>
          have settled : C.Matches (fun _ _ => True) Escape.Settled stage
              (modify fun image => image.generalizeControl controlSite)
              (modify fun image => image.generalizeControl controlSite) :=
            laws.perform (.settle controlSite) trivial trivial rfl rfl rfl
              fun _ _ _ => trivial
          refine Matches.bind laws settled fun settled later _ _ => ?_
          refine Matches.bind laws (laws.note _) fun noted further _ _ => ?_
          have later := laws.trans later further
          exact sendAt_evaluates laws partners (sends.mono (laws.extended later))
            (laws.mono later known) (laws.monoAll later allKnown)

end Machines

/-- Machines that evaluate code alike.  A control message on one side that is an ordinary send on
the other side is a matter of the machines, since one of them takes an activation more for it. -/
structure Interpreters (C : Correspondence) (machine other : Machine) : Prop
    extends C.Partners machine other where
  specialized : ∀ {stage frame controlSite message site selector code codeToo codes codesToo
      receiver operands},
    C.Fits stage frame (.control controlSite message site selector code codes)
      (.send site selector codeToo codesToo) →
    receiver.Exists (C.first stage) → Value.AllExist (C.first stage) operands →
    C.Evaluates stage (machine.controlAt controlSite message site selector receiver operands)
      (other.sendAt site selector receiver operands)
  generalized : ∀ {stage frame controlSite message site selector code codeToo codes codesToo
      receiver operands},
    C.Fits stage frame (.send site selector code codes)
      (.control controlSite message site selector codeToo codesToo) →
    receiver.Exists (C.first stage) → Value.AllExist (C.first stage) operands →
    C.Evaluates stage (machine.sendAt site selector receiver operands)
      (other.controlAt controlSite message site selector receiver operands)

/-- Whether an expression is evaluated like every one of the other machine that fits it. -/
def InStep (C : Correspondence) (machine other : Machine) (frame : FrameRef) (code : Code) : Prop :=
  ∀ {stage codeToo}, C.Fits stage frame code codeToo →
    C.Evaluates stage (code.evaluate machine frame) (codeToo.evaluate other frame)

/-- Whether expressions are evaluated one after the other like all those that fit them. -/
def AllInStep (C : Correspondence) (machine other : Machine) (frame : FrameRef)
    (codes : List Code) : Prop :=
  ∀ {stage codesToo}, List.Forall₂ (C.Fits stage frame) codes codesToo →
    C.Matches Value.AllExist Escape.Settled stage (Code.evaluateAll machine frame codes)
      (Code.evaluateAll other frame codesToo)

section Interpreters

variable {machine other : Machine} (laws : C.Laws) (interpreters : C.Interpreters machine other)
  {frame : FrameRef}

section Expressions

variable {receiver value : Code} {operands : List Code}
include laws

theorem inStep_self : C.InStep machine other frame .self := by
  intro stage codeToo fits
  cases laws.paired fits with
  | self same =>
      refine Matches.get ?_
      rw [show ((C.second stage).frameAt frame).receiver = _ from same]
      exact Matches.pure laws (laws.receiver_exists stage frame)

theorem inStep_read (slot : Slot) : C.InStep machine other frame (.read slot) := by
  intro stage codeToo fits
  cases laws.paired fits with
  | read same =>
      refine Matches.get ?_
      rw [same]
      cases found : (C.first stage).slot? frame slot with
      | none => exact laws.fail fun _ => Failure.noConfusion
      | some value => exact Matches.pure laws ((laws.formed stage).exists_of_slot? found)

theorem inStep_write (slot : Slot) (inner : C.InStep machine other frame value) :
    C.InStep machine other frame (.write slot value) := by
  intro stage codeToo fits
  cases laws.paired fits with
  | write _ valueFits =>
      refine Matches.bind laws (inner valueFits) fun after later result known => ?_
      -- The slot is looked for after its value was evaluated.
      cases laws.paired (laws.carry later fits) with
      | write same _ =>
          refine Matches.get ?_
          rw [same]
          cases (C.first after).slotHome? frame slot with
          | none => exact laws.fail fun _ => Failure.noConfusion
          | some home =>
              refine Matches.bind laws (laws.setSlot home slot.kind slot.index known)
                fun final further _ _ => ?_
              exact Matches.pure laws (laws.mono further known)

theorem inStep_readField (site : FieldSiteRef) (index : Nat) :
    C.InStep machine other frame (.readField site index) := by
  intro stage codeToo fits
  cases laws.paired fits with
  | readField same accesses =>
      refine Matches.get ?_
      dsimp only
      rw [show ((C.second stage).frameAt frame).receiver = _ from same]
      refine Matches.bind laws (laws.readFieldAt (laws.receiver_exists stage frame) accesses)
        fun after later result known => ?_
      cases result with
      | none => exact laws.fail fun _ => Failure.noConfusion
      | some value => exact Matches.pure laws (known value rfl)

theorem inStep_writeField (site : FieldSiteRef) (index : Nat)
    (inner : C.InStep machine other frame value) :
    C.InStep machine other frame (.writeField site index value) := by
  intro stage codeToo fits
  cases laws.paired fits with
  | writeField _ _ valueFits =>
      refine Matches.bind laws (inner valueFits) fun after later result known => ?_
      cases laws.paired (laws.carry later fits) with
      | writeField same accesses _ =>
          refine Matches.get ?_
          dsimp only
          rw [show ((C.second after).frameAt frame).receiver = _ from same]
          refine Matches.bind laws (laws.writeFieldAt (laws.receiver_exists after frame) known
            accesses) fun final further written _ => ?_
          cases written with
          | false => exact laws.fail fun _ => Failure.noConfusion
          | true => exact Matches.pure laws (laws.mono further known)

theorem inStep_literal (datum : Datum) : C.InStep machine other frame (.literal datum) := by
  intro stage codeToo fits
  cases laws.paired fits with
  | literal => exact laws.datum datum

theorem inStep_block (parameters temporaries : Nat) (captures : Bool) (body : List Code) :
    C.InStep machine other frame (.block parameters temporaries captures body) := by
  intro stage codeToo fits
  cases laws.paired fits with
  | block made =>
      obtain ⟨after, reached⟩ := made
      refine Matches.modifyGet reached (congrArg Value.block (laws.alike stage).nextBlock) ?_
      rw [reached.first]
      exact (Arena.has_push _ _ _).mpr (Or.inr rfl)

theorem inStep_answer (span : Span) (inner : C.InStep machine other frame value) :
    C.InStep machine other frame (.answer value span) := by
  intro stage codeToo fits
  cases laws.paired fits with
  | answer _ valueFits =>
      refine Matches.bind laws (inner valueFits) fun after later result known => ?_
      cases laws.paired (laws.carry later fits) with
      | answer same _ =>
          have alike := laws.alike after
          refine Matches.get ?_
          dsimp only
          rw [same, (alike.frames _).live, alike.frameName]
          split
          · exact Matches.throw laws known
          · refine Matches.bind laws (laws.note _) fun noted further _ _ => ?_
            exact laws.fail fun _ => Failure.noConfusion

/-- What is done with a receiver and operands comes after they were evaluated. -/
theorem applied_evaluates {stage : C.Stage} {receiverToo : Code} {operandsToo : List Code}
    {body bodyToo : Value → List Value → Eval Value} (first : C.InStep machine other frame receiver)
    (rest : C.AllInStep machine other frame operands)
    (fits : C.Fits stage frame receiver receiverToo)
    (fit : List.Forall₂ (C.Fits stage frame) operands operandsToo)
    (next : ∀ {after}, C.Later stage after → ∀ {value values}, value.Exists (C.first after) →
      Value.AllExist (C.first after) values →
      C.Evaluates after (body value values) (bodyToo value values)) :
    C.Evaluates stage
      (do
        let value ← receiver.evaluate machine frame
        let values ← Code.evaluateAll machine frame operands
        body value values)
      (do
        let value ← receiverToo.evaluate other frame
        let values ← Code.evaluateAll other frame operandsToo
        bodyToo value values) := by
  refine Matches.bind laws (first fits) fun between later value known => ?_
  have fit := fit.imp fun _ _ fits => laws.carry later fits
  refine Matches.bind laws (rest fit) fun after further values allKnown => ?_
  exact next (laws.trans later further) (laws.mono further known) allKnown

include interpreters

theorem inStep_global (name : String) : C.InStep machine other frame (.global name) := by
  intro stage codeToo fits
  cases laws.paired fits with
  | global same =>
      refine Matches.get ?_
      rw [(laws.alike stage).global?]
      cases found : (C.first stage).global? name with
      | some value => exact Matches.pure laws ((laws.formed stage).exists_of_global? found)
      | none =>
          refine Matches.get ?_
          rw [show ((C.second stage).frameAt frame).receiver = _ from same]
          exact reportGlobal_evaluates laws interpreters.toPartners name
            (laws.receiver_exists stage frame)

theorem inStep_send (site : CallSiteRef) (selector : Selector)
    (first : C.InStep machine other frame receiver)
    (rest : C.AllInStep machine other frame operands) :
    C.InStep machine other frame (.send site selector receiver operands) := by
  intro stage codeToo fits
  cases laws.paired fits with
  | send sends receiverFits operandsFit =>
      refine applied_evaluates laws first rest receiverFits operandsFit
        fun later _ _ known allKnown => ?_
      exact sendAt_evaluates laws interpreters.toPartners (sends.mono (laws.extended later)) known
        allKnown
  | generalized receiverFits operandsFit =>
      refine applied_evaluates laws first rest receiverFits operandsFit
        fun later _ _ known allKnown => ?_
      exact interpreters.generalized (laws.carry later fits) known allKnown

theorem inStep_superSend (site : CallSiteRef) (origin : ClassRef) (selector : Selector)
    (rest : C.AllInStep machine other frame operands) :
    C.InStep machine other frame (.superSend site origin selector operands) := by
  intro stage codeToo fits
  cases laws.paired fits with
  | superSend same sends operandsFit =>
      refine Matches.get ?_
      dsimp only
      rw [show ((C.second stage).frameAt frame).receiver = _ from same]
      refine Matches.bind laws (rest operandsFit) fun after later results allKnown => ?_
      exact sendSuperAt_evaluates laws interpreters.toPartners
        (Image.Outlines.mono sends (laws.extended later))
        (laws.mono later (laws.receiver_exists stage frame)) allKnown

theorem inStep_control (controlSite : ControlSiteRef) (message : ControlMessage)
    (site : CallSiteRef) (selector : Selector) (first : C.InStep machine other frame receiver)
    (rest : C.AllInStep machine other frame operands) :
    C.InStep machine other frame
      (.control controlSite message site selector receiver operands) := by
  intro stage codeToo fits
  cases laws.paired fits with
  | control _ _ receiverFits operandsFit =>
      refine applied_evaluates laws first rest receiverFits operandsFit
        fun later _ _ known allKnown => ?_
      -- The state of the site is asked for after the operands were evaluated.
      cases laws.paired (laws.carry later fits) with
      | control same sends _ _ =>
          exact controlAt_evaluates laws interpreters.toPartners same sends known allKnown
  | specialized receiverFits operandsFit =>
      refine applied_evaluates laws first rest receiverFits operandsFit
        fun later _ _ known allKnown => ?_
      exact interpreters.specialized (laws.carry later fits) known allKnown

end Expressions

include laws

mutual

/-- Expressions that fit each other are evaluated alike. -/
theorem code_evaluates (interpreters : C.Interpreters machine other) (code : Code) :
    C.InStep machine other frame code := by
  cases code with
  | self => exact inStep_self laws
  | read slot => exact inStep_read laws slot
  | write slot value => exact inStep_write laws slot (code_evaluates interpreters value)
  | readField site index => exact inStep_readField laws site index
  | writeField site index value =>
      exact inStep_writeField laws site index (code_evaluates interpreters value)
  | global name => exact inStep_global laws interpreters name
  | literal datum => exact inStep_literal laws datum
  | block parameters temporaries captures body =>
      exact inStep_block laws parameters temporaries captures body
  | send site selector receiver operands =>
      exact inStep_send laws interpreters site selector (code_evaluates interpreters receiver)
        (codes_evaluate interpreters operands)
  | superSend site origin selector operands =>
      exact inStep_superSend laws interpreters site origin selector
        (codes_evaluate interpreters operands)
  | control controlSite message site selector receiver operands =>
      exact inStep_control laws interpreters controlSite message site selector
        (code_evaluates interpreters receiver) (codes_evaluate interpreters operands)
  | answer value span => exact inStep_answer laws span (code_evaluates interpreters value)

/-- Expressions one after the other. -/
theorem codes_evaluate (interpreters : C.Interpreters machine other) (codes : List Code) :
    C.AllInStep machine other frame codes := by
  intro stage codesToo fit
  cases codes with
  | nil =>
      cases fit with
      | nil => exact Matches.pure laws (.nil _)
  | cons code rest =>
      cases fit with
      | cons fits restFits =>
          refine Matches.bind laws (code_evaluates interpreters code fits)
            fun after later value known => ?_
          have restFits := restFits.imp fun _ _ fits => laws.carry later fits
          refine Matches.bind laws (codes_evaluate interpreters rest restFits)
            fun final further values allKnown => ?_
          exact Matches.pure laws (.cons (laws.mono further known) allKnown)

end

include laws interpreters

/-- Bodies whose expressions fit each other are evaluated alike. -/
theorem body_evaluates {body bodyToo : List Code}
    (fit : List.Forall₂ (C.Fits stage frame) body bodyToo) :
    C.Evaluates stage (Code.evaluateBody machine frame body)
      (Code.evaluateBody other frame bodyToo) := by
  refine Matches.bind laws (codes_evaluate laws interpreters body fit)
    fun after later values allKnown => ?_
  refine Matches.pure laws ?_
  cases last : values.getLast? with
  | none => trivial
  | some value => exact allKnown value (List.mem_of_getLast? last)

end Interpreters

end Correspondence

end MessageMachine
