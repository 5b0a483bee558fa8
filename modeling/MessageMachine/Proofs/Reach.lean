import Mathlib.Data.List.Forall2
import MessageMachine.Proofs.Preparation

/-!
# What a block needs of its surroundings

A block keeps hold of the activation that it is made in when its source needs anything outside the
block.  The question is asked again here of prepared code, where it comes out the same, since it is
the code that is run.  Code in which some blocks keep hold of more than they need is compared with
the code as it was prepared.
-/

namespace MessageMachine

namespace Code

mutual

/-- Whether code needs anything outside a block, seen from a number of blocks inside it: the
receiver, the activation to return from, or a slot further out. -/
def reachesOut (depth : Nat) : Code → Bool
  | .self => true
  | .read slot => decide (depth < slot.depth)
  | .write slot value => decide (depth < slot.depth) || value.reachesOut depth
  | .readField _ _ => true
  | .writeField _ _ _ => true
  | .global _ => true
  | .literal _ => false
  | .block _ _ _ body => Code.anyReachOut (depth + 1) body
  | .send _ _ receiver operands => receiver.reachesOut depth || Code.anyReachOut depth operands
  | .superSend _ _ _ _ => true
  | .control _ _ _ _ receiver operands =>
      receiver.reachesOut depth || Code.anyReachOut depth operands
  | .answer _ _ => true

/-- Whether some of the code needs anything outside a block. -/
def anyReachOut (depth : Nat) : List Code → Bool
  | [] => false
  | code :: rest => code.reachesOut depth || Code.anyReachOut depth rest

end

mutual

/-- The same code with every block keeping hold of the activation that it is made in. -/
def capturing : Code → Code
  | .self => .self
  | .read slot => .read slot
  | .write slot value => .write slot value.capturing
  | .readField site index => .readField site index
  | .writeField site index value => .writeField site index value.capturing
  | .global name => .global name
  | .literal datum => .literal datum
  | .block parameters temporaries _ body =>
      .block parameters temporaries true (Code.capturingAll body)
  | .send site selector receiver operands =>
      .send site selector receiver.capturing (Code.capturingAll operands)
  | .superSend site origin selector operands =>
      .superSend site origin selector (Code.capturingAll operands)
  | .control controlSite message site selector receiver operands =>
      .control controlSite message site selector receiver.capturing (Code.capturingAll operands)
  | .answer value span => .answer value.capturing span

/-- The same expressions with every block keeping hold of the activation that it is made in. -/
def capturingAll : List Code → List Code
  | [] => []
  | code :: rest => code.capturing :: Code.capturingAll rest

end

/-- Code with blocks that keep hold of the activation they are made in where they need to, and the
same code with blocks that may do so where they do not need to. -/
inductive Raised : Code → Code → Prop
  | self : Raised .self .self
  | read {slot : Slot} : Raised (.read slot) (.read slot)
  | write {slot : Slot} {value other : Code} : Raised value other →
      Raised (.write slot value) (.write slot other)
  | readField {site : FieldSiteRef} {index : Nat} :
      Raised (.readField site index) (.readField site index)
  | writeField {site : FieldSiteRef} {index : Nat} {value other : Code} : Raised value other →
      Raised (.writeField site index value) (.writeField site index other)
  | global {name : String} : Raised (.global name) (.global name)
  | literal {datum : Datum} : Raised (.literal datum) (.literal datum)
  | block {parameters temporaries : Nat} {captures capturesToo : Bool} {body other : List Code} :
      (captures = true → capturesToo = true) →
      (captures = false → Code.anyReachOut 0 body = false) →
      List.Forall₂ Raised body other →
      Raised (.block parameters temporaries captures body)
        (.block parameters temporaries capturesToo other)
  | send {site : CallSiteRef} {selector : Selector} {receiver receiverToo : Code}
      {operands operandsToo : List Code} : Raised receiver receiverToo →
      List.Forall₂ Raised operands operandsToo →
      Raised (.send site selector receiver operands) (.send site selector receiverToo operandsToo)
  | superSend {site : CallSiteRef} {origin : ClassRef} {selector : Selector}
      {operands operandsToo : List Code} : List.Forall₂ Raised operands operandsToo →
      Raised (.superSend site origin selector operands)
        (.superSend site origin selector operandsToo)
  | control {controlSite : ControlSiteRef} {message : ControlMessage} {site : CallSiteRef}
      {selector : Selector} {receiver receiverToo : Code} {operands operandsToo : List Code} :
      Raised receiver receiverToo → List.Forall₂ Raised operands operandsToo →
      Raised (.control controlSite message site selector receiver operands)
        (.control controlSite message site selector receiverToo operandsToo)
  | answer {value other : Code} {span : Span} : Raised value other →
      Raised (.answer value span) (.answer other span)

mutual

/-- However much the blocks keep hold of, they may keep hold of still more. -/
theorem raised_capturing (code : Code) {other : Code} (raised : code.Raised other) :
    code.Raised other.capturing := by
  cases code with
  | self =>
      cases raised
      exact .self
  | read slot =>
      cases raised
      exact .read
  | readField site index =>
      cases raised
      exact .readField
  | global name =>
      cases raised
      exact .global
  | literal datum =>
      cases raised
      exact .literal
  | write slot value =>
      cases raised with
      | write inner => exact .write (raised_capturing value inner)
  | writeField site index value =>
      cases raised with
      | writeField inner => exact .writeField (raised_capturing value inner)
  | block parameters temporaries captures body =>
      cases raised with
      | block _ needless inner =>
          exact .block (fun _ => rfl) needless (raisedAll_capturing body inner)
  | send site selector receiver operands =>
      cases raised with
      | send inner inners =>
          exact .send (raised_capturing receiver inner) (raisedAll_capturing operands inners)
  | superSend site origin selector operands =>
      cases raised with
      | superSend inners => exact .superSend (raisedAll_capturing operands inners)
  | control controlSite message site selector receiver operands =>
      cases raised with
      | control inner inners =>
          exact .control (raised_capturing receiver inner) (raisedAll_capturing operands inners)
  | answer value span =>
      cases raised with
      | answer inner => exact .answer (raised_capturing value inner)

theorem raisedAll_capturing (codes : List Code) {others : List Code}
    (raised : List.Forall₂ Raised codes others) :
    List.Forall₂ Raised codes (Code.capturingAll others) := by
  cases codes with
  | nil =>
      cases raised
      exact .nil
  | cons code rest =>
      cases raised with
      | cons inner inners =>
          exact .cons (raised_capturing code inner) (raisedAll_capturing rest inners)

end

end Code

namespace Source.Expression

mutual

/-- Preparation changes nothing about what an expression needs. -/
theorem reachesOut_of_prepare {surroundings : Surroundings} {scopes : List Scope}
    {draft after : Draft} (expression : Expression) {code : Code}
    (success : expression.prepare surroundings scopes draft = .ok code after) (depth : Nat) :
    code.reachesOut depth = expression.reachesOut depth := by
  cases expression with
  | self =>
      cases prepared_of_prepare success with
      | self => rfl
  | global name =>
      cases prepared_of_prepare success with
      | global => rfl
  | read address =>
      cases prepared_of_prepare success with
      | readSlot => rfl
      | readField => rfl
  | write address value =>
      cases prepared_of_prepare success with
      | writeSlot _ prepared =>
          rw [Code.reachesOut, reachesOut, reachesOut_of_prepare value prepared depth]
          rfl
      | writeField _ prepared => rfl
  | send receiver selector operands =>
      cases prepared_of_prepare success with
      | send _ prepared preparedAll _ =>
          rw [Code.reachesOut, reachesOut, reachesOut_of_prepare receiver prepared depth,
            anyReachOut_of_prepareAll operands preparedAll depth]
      | control _ prepared preparedAll _ =>
          rw [Code.reachesOut, reachesOut, reachesOut_of_prepare receiver prepared depth,
            anyReachOut_of_prepareAll operands preparedAll depth]
  | superSend selector operands =>
      cases prepared_of_prepare success with
      | superSend _ _ => rfl
  | answer value span =>
      cases prepared_of_prepare success with
      | answer _ => rfl
  | literal value =>
      cases prepared_of_prepare success with
      | literal _ => rfl
  | block parameters temporaries body =>
      cases prepared_of_prepare success with
      | block _ preparedAll =>
          rw [Code.reachesOut, reachesOut, anyReachOut_of_prepareAll body preparedAll (depth + 1)]

theorem anyReachOut_of_prepareAll {surroundings : Surroundings} {scopes : List Scope}
    {draft after : Draft} (expressions : List Expression) {codes : List Code}
    (success : prepareAll surroundings scopes expressions draft = .ok codes after)
    (depth : Nat) : Code.anyReachOut depth codes = anyReachOut depth expressions := by
  cases expressions with
  | nil =>
      cases success
      rfl
  | cons expression rest =>
      obtain ⟨code, between, others, rfl, prepared, preparedAll⟩ := prepared_of_prepareAll success
      rw [Code.anyReachOut, anyReachOut, reachesOut_of_prepare expression prepared depth,
        anyReachOut_of_prepareAll rest preparedAll depth]

end

mutual

/-- In prepared code the blocks keep hold of the activation they are made in where they need to. -/
theorem raised_of_prepare {surroundings : Surroundings} {scopes : List Scope}
    {draft after : Draft} (expression : Expression) {code : Code}
    (success : expression.prepare surroundings scopes draft = .ok code after) :
    code.Raised code := by
  cases expression with
  | self =>
      cases prepared_of_prepare success with
      | self => exact .self
  | global name =>
      cases prepared_of_prepare success with
      | global => exact .global
  | read address =>
      cases prepared_of_prepare success with
      | readSlot => exact .read
      | readField => exact .readField
  | write address value =>
      cases prepared_of_prepare success with
      | writeSlot _ prepared => exact .write (raised_of_prepare value prepared)
      | writeField _ prepared => exact .writeField (raised_of_prepare value prepared)
  | send receiver selector operands =>
      cases prepared_of_prepare success with
      | send _ prepared preparedAll _ =>
          exact .send (raised_of_prepare receiver prepared)
            (raised_of_prepareAll operands preparedAll)
      | control _ prepared preparedAll _ =>
          exact .control (raised_of_prepare receiver prepared)
            (raised_of_prepareAll operands preparedAll)
  | superSend selector operands =>
      cases prepared_of_prepare success with
      | superSend _ preparedAll => exact .superSend (raised_of_prepareAll operands preparedAll)
  | answer value span =>
      cases prepared_of_prepare success with
      | answer prepared => exact .answer (raised_of_prepare value prepared)
  | literal value =>
      cases prepared_of_prepare success with
      | literal _ => exact .literal
  | block parameters temporaries body =>
      cases prepared_of_prepare success with
      | block _ preparedAll =>
          refine .block id (fun needless => ?_) (raised_of_prepareAll body preparedAll)
          rw [anyReachOut_of_prepareAll body preparedAll 0]
          exact needless

theorem raised_of_prepareAll {surroundings : Surroundings} {scopes : List Scope}
    {draft after : Draft} (expressions : List Expression) {codes : List Code}
    (success : prepareAll surroundings scopes expressions draft = .ok codes after) :
    List.Forall₂ Code.Raised codes codes := by
  cases expressions with
  | nil =>
      cases success
      exact .nil
  | cons expression rest =>
      obtain ⟨code, between, others, rfl, prepared, preparedAll⟩ := prepared_of_prepareAll success
      exact .cons (raised_of_prepare expression prepared) (raised_of_prepareAll rest preparedAll)

end

end Source.Expression

end MessageMachine
