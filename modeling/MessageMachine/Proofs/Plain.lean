import MessageMachine.Code.Method
import MessageMachine.Memory.Frame
import MessageMachine.Proofs.Preparation

/-!
# Code without control messages

A machine that does not specialize control messages prepares them as ordinary sends.  Apart from
that the code is the same, down to the numbers of the send sites and field sites, and so are the
flaws that are found.  The plain form of code is what the other machine would have prepared.
-/

namespace MessageMachine

namespace Code

mutual

/-- The same code with every control message sent like any other. -/
def plain : Code → Code
  | .self => .self
  | .read slot => .read slot
  | .write slot value => .write slot value.plain
  | .readField site index => .readField site index
  | .writeField site index value => .writeField site index value.plain
  | .global name => .global name
  | .literal datum => .literal datum
  | .block parameters temporaries captures body =>
      .block parameters temporaries captures (Code.plainAll body)
  | .send site selector receiver operands =>
      .send site selector receiver.plain (Code.plainAll operands)
  | .superSend site origin selector operands =>
      .superSend site origin selector (Code.plainAll operands)
  | .control _ _ site selector receiver operands =>
      .send site selector receiver.plain (Code.plainAll operands)
  | .answer value span => .answer value.plain span

/-- The same expressions with every control message sent like any other. -/
def plainAll : List Code → List Code
  | [] => []
  | code :: rest => code.plain :: Code.plainAll rest

end

end Code

/-- The node that stands for another one in the outline of plain code. -/
def OutlineNode.plain : OutlineNode → OutlineNode
  | .control _ _ site selector => .send site selector
  | node => node

namespace Code

mutual

/-- The outline of plain code. -/
theorem outline_plain (code : Code) : code.plain.outline = code.outline.map OutlineNode.plain := by
  cases code with
  | self => rfl
  | read slot => rfl
  | readField site index => rfl
  | global name => rfl
  | literal datum => rfl
  | write slot value => exact outline_plain value
  | answer value span => exact outline_plain value
  | writeField site index value =>
      simp only [plain, outline, List.map_cons, outline_plain value]
      rfl
  | block parameters temporaries captures body =>
      simp only [plain, outline, List.map_cons, outlineAll_plain body]
      rfl
  | send site selector receiver operands =>
      simp only [plain, outline, List.map_cons, List.map_append, outline_plain receiver,
        outlineAll_plain operands]
      rfl
  | superSend site origin selector operands =>
      simp only [plain, outline, List.map_cons, outlineAll_plain operands]
      rfl
  | control controlSite message site selector receiver operands =>
      simp only [plain, outline, List.map_cons, List.map_append, outline_plain receiver,
        outlineAll_plain operands]
      rfl

theorem outlineAll_plain (codes : List Code) :
    Code.outlineAll (Code.plainAll codes) = (Code.outlineAll codes).map OutlineNode.plain := by
  cases codes with
  | nil => rfl
  | cons code rest =>
      simp only [plainAll, outlineAll, List.map_append, outline_plain code, outlineAll_plain rest]

end

mutual

/-- There is nothing left to change in plain code. -/
theorem plain_plain (code : Code) : code.plain.plain = code.plain := by
  cases code with
  | self => rfl
  | read slot => rfl
  | readField site index => rfl
  | global name => rfl
  | literal datum => rfl
  | write slot value => simp only [plain, plain_plain value]
  | answer value span => simp only [plain, plain_plain value]
  | writeField site index value => simp only [plain, plain_plain value]
  | block parameters temporaries captures body => simp only [plain, plainAll_plainAll body]
  | send site selector receiver operands =>
      simp only [plain, plain_plain receiver, plainAll_plainAll operands]
  | superSend site origin selector operands => simp only [plain, plainAll_plainAll operands]
  | control controlSite message site selector receiver operands =>
      simp only [plain, plain_plain receiver, plainAll_plainAll operands]

theorem plainAll_plainAll (codes : List Code) :
    Code.plainAll (Code.plainAll codes) = Code.plainAll codes := by
  cases codes with
  | nil => rfl
  | cons code rest => simp only [plainAll, plain_plain code, plainAll_plainAll rest]

end

end Code

/-- The routine that a machine would have prepared that does not specialize control messages. -/
def Routine.plain (routine : Routine) : Routine :=
  { routine with body := Code.plainAll routine.body }

theorem Routine.plain_plain (routine : Routine) : routine.plain.plain = routine.plain := by
  simp only [Routine.plain, Code.plainAll_plainAll]

/-- The behavior with plain code. -/
def Behavior.plain : Behavior → Behavior
  | .defined routine => .defined routine.plain
  | behavior => behavior

/-- The method with plain code. -/
def Method.plain (method : Method) : Method :=
  { method with behavior := method.behavior.plain }

/-- The block with plain code. -/
def Closure.plain (closure : Closure) : Closure :=
  { closure with body := Code.plainAll closure.body }

theorem Method.body_plain (method : Method) : method.plain.body = Code.plainAll method.body := by
  obtain ⟨holder, selector, behavior⟩ := method
  cases behavior <;> rfl

namespace Draft

/-- Whether the same names were met, and the same send sites and field sites allocated.  Send sites
need not remember the same. -/
structure Aligned (draft other : Draft) : Prop where
  calls : other.calls.size = draft.calls.size
  fields : other.fields = draft.fields
  version : other.version = draft.version
  interner : other.interner = draft.interner
  callSites : other.callSites = draft.callSites

namespace Aligned

variable {draft other : Draft}

theorem nextCall (aligned : draft.Aligned other) : other.calls.next = draft.calls.next :=
  congrArg Ref.mk aligned.calls

theorem meetAll (aligned : draft.Aligned other) (names : List String) :
    (draft.meetAll names).Aligned (other.meetAll names) :=
  { aligned with interner := by simp only [Draft.meetAll, aligned.interner] }

theorem addCall (aligned : draft.Aligned other) : draft.addCall.Aligned other.addCall :=
  { aligned with
    calls := by simp only [Draft.addCall, Sites.addCall, Arena.size_push, aligned.calls]
    callSites := by simp only [Draft.addCall, aligned.callSites, aligned.nextCall] }

theorem addField (aligned : draft.Aligned other) : draft.addField.Aligned other.addField :=
  { aligned with fields := by simp only [Draft.addField, Sites.addField, aligned.fields] }

/-- Control sites are not compared. -/
theorem addControl (aligned : draft.Aligned other) : draft.addControl.Aligned other :=
  { aligned with }

end Aligned

end Draft

namespace Preparing

variable {Answer Next : Type}

/-- Preparations that end alike, with related answers or the same flaw. -/
inductive Ends {Flaw : Type} (related : Answer → Answer → Prop) :
    EStateM.Result Flaw Draft Answer → EStateM.Result Flaw Draft Answer → Prop
  | ok {answer other : Answer} {after afterToo : Draft} : related answer other →
      after.Aligned afterToo → Ends related (.ok answer after) (.ok other afterToo)
  | error {flaw : Flaw} {after afterToo : Draft} : after.Aligned afterToo →
      Ends related (.error flaw after) (.error flaw afterToo)

/-- Preparations that end alike when they are started from aligned drafts. -/
def Parallel (related : Answer → Answer → Prop) (preparation other : Preparing Answer) : Prop :=
  ∀ draft draftToo, draft.Aligned draftToo → Ends related (preparation draft) (other draftToo)

namespace Parallel

variable {related : Answer → Answer → Prop} {relatedNext : Next → Next → Prop}

theorem pure {answer other : Answer} (same : related answer other) :
    Parallel related (Pure.pure answer) (Pure.pure other) :=
  fun _ _ aligned => .ok same aligned

theorem throw (flaw : BodyFlaw) :
    Parallel related (MonadExcept.throw flaw) (MonadExcept.throw flaw) :=
  fun _ _ aligned => .error aligned

theorem throw_bind (flaw : BodyFlaw) (next nextToo : Answer → Preparing Next) :
    Parallel relatedNext ((MonadExcept.throw flaw : Preparing Answer) >>= next)
      ((MonadExcept.throw flaw : Preparing Answer) >>= nextToo) :=
  fun _ _ aligned => .error aligned

theorem bind {preparation other : Preparing Answer} {next nextToo : Answer → Preparing Next}
    (parallel : Parallel related preparation other)
    (continued : ∀ answer answerToo, related answer answerToo →
      Parallel relatedNext (next answer) (nextToo answerToo)) :
    Parallel relatedNext (preparation >>= next) (other >>= nextToo) := by
  intro draft draftToo aligned
  have ended := parallel draft draftToo aligned
  simp only [Bind.bind, EStateM.bind]
  generalize preparation draft = result at ended
  generalize other draftToo = resultToo at ended
  cases ended with
  | ok same aligned => exact continued _ _ same _ _ aligned
  | error aligned => exact .error aligned

/-- Names are met alike on both sides. -/
theorem naming {preparation : Preparing Answer} (naming : preparation.Naming) :
    Parallel (fun answer other => other = answer) preparation preparation := by
  intro draft draftToo aligned
  cases naming with
  | ok names answer comes =>
      rw [comes, comes]
      exact .ok rfl (aligned.meetAll names)
  | error names flaw comes =>
      rw [comes, comes]
      exact .error (aligned.meetAll names)

theorem callSite : Parallel (fun site other => other = site) Preparing.callSite
    Preparing.callSite :=
  fun _ _ aligned => .ok aligned.nextCall aligned.addCall

theorem fieldSite : Parallel (fun site other => other = site) Preparing.fieldSite
    Preparing.fieldSite :=
  fun _ _ aligned => .ok (by rw [aligned.fields]) aligned.addField

/-- A control site is allocated on one side only. -/
theorem controlSite {next : ControlSiteRef → Preparing Answer} {other : Preparing Answer}
    (continued : ∀ site, Parallel related (next site) other) :
    Parallel related (Preparing.controlSite >>= next) other :=
  fun _ _ aligned => continued _ _ _ aligned.addControl

end Parallel

end Preparing

/-- The surroundings for a machine that does not specialize control messages. -/
def Surroundings.plain (surroundings : Surroundings) : Surroundings :=
  { surroundings with specializeControl := false }

namespace Source

theorem Variable.check_parallel (surroundings : Surroundings) (scopes : List Scope)
    (address : Variable) :
    Preparing.Parallel (fun _ _ => True) (address.check surroundings scopes)
      (address.check surroundings.plain scopes) := by
  have same : address.flaw? surroundings.plain scopes = address.flaw? surroundings scopes := by
    cases address <;> rfl
  unfold check
  rw [same]
  cases address.flaw? surroundings scopes with
  | none => exact .pure trivial
  | some flaw => exact .throw flaw

namespace Expression

open Preparing

mutual

/-- Without specialization the plain form of the code is prepared. -/
theorem prepare_parallel (surroundings : Surroundings) (scopes : List Scope)
    (expression : Expression) :
    Parallel (fun code other => other = code.plain) (expression.prepare surroundings scopes)
      (expression.prepare surroundings.plain scopes) := by
  cases expression with
  | self => exact .pure rfl
  | global name => exact .bind (.naming (.meet name)) fun _ _ _ => .pure rfl
  | read address =>
      refine .bind (address.check_parallel surroundings scopes) fun _ _ _ => ?_
      cases address with
      | slot slot => exact .pure rfl
      | field index =>
          refine .bind .fieldSite fun site siteToo same => ?_
          cases same
          exact .pure rfl
  | write address value =>
      refine .bind (address.check_parallel surroundings scopes) fun _ _ _ => ?_
      refine .bind (prepare_parallel surroundings scopes value) fun code codeToo same => ?_
      cases same
      cases address with
      | slot slot => exact .pure rfl
      | field index =>
          refine .bind .fieldSite fun site siteToo same => ?_
          cases same
          exact .pure rfl
  | send receiver selector operands =>
      rw [prepare, prepare]
      split
      · exact .throw_bind _ _ _
      · refine .bind (prepare_parallel surroundings scopes receiver) fun code codeToo same => ?_
        cases same
        refine .bind (prepareAll_parallel surroundings scopes operands)
          fun codes codesToo same => ?_
        cases same
        refine .bind (.naming (.meet selector)) fun _ _ _ => ?_
        refine .bind .callSite fun site siteToo same => ?_
        cases same
        cases (if surroundings.specializeControl then ControlMessage.ofSelector? selector
          else none) with
        | none => exact .pure rfl
        | some message => exact .controlSite fun controlSite => .pure rfl
  | superSend selector operands =>
      rw [prepare, prepare, show surroundings.plain.superclass = surroundings.superclass from rfl]
      cases surroundings.superclass with
      | none => exact .throw _
      | some origin =>
          refine .bind (prepareAll_parallel surroundings scopes operands)
            fun codes codesToo same => ?_
          cases same
          refine .bind (.naming (.meet selector)) fun _ _ _ => ?_
          refine .bind .callSite fun site siteToo same => ?_
          cases same
          exact .pure rfl
  | answer value span =>
      refine .bind (prepare_parallel surroundings scopes value) fun code codeToo same => ?_
      cases same
      exact .pure rfl
  | literal value =>
      refine .bind (.naming value.prepare_naming) fun datum datumToo same => ?_
      cases same
      exact .pure rfl
  | block parameters temporaries body =>
      rw [prepare, prepare]
      split
      · exact .throw_bind _ _ _
      · refine .bind (prepareAll_parallel surroundings _ body) fun codes codesToo same => ?_
        cases same
        exact .pure rfl

theorem prepareAll_parallel (surroundings : Surroundings) (scopes : List Scope)
    (expressions : List Expression) :
    Parallel (fun codes others => others = Code.plainAll codes)
      (prepareAll surroundings scopes expressions)
      (prepareAll surroundings.plain scopes expressions) := by
  cases expressions with
  | nil => exact .pure rfl
  | cons expression rest =>
      refine .bind (prepare_parallel surroundings scopes expression) fun code codeToo same => ?_
      cases same
      refine .bind (prepareAll_parallel surroundings scopes rest) fun codes codesToo same => ?_
      cases same
      exact .pure rfl

end

end Expression

/-- Without specialization the plain form of a method is prepared, or the same flaw is found. -/
theorem MethodDefinition.prepare_ends (definition : MethodDefinition)
    (surroundings : Surroundings) {draft other : Draft} (aligned : draft.Aligned other) :
    Preparing.Ends (fun routine routineToo => routineToo = routine.plain)
      (definition.prepare surroundings draft) (definition.prepare surroundings.plain other) := by
  unfold prepare
  cases definition.body with
  | primitive => exact .error aligned
  | expressions temporaries body =>
      dsimp only
      split
      · exact .error aligned
      · have ended := Expression.prepareAll_parallel surroundings
          [{ parameters := definition.parameters, temporaries }] body draft other aligned
        simp only [Bind.bind, EStateM.bind, EStateM.adaptExcept]
        generalize Expression.prepareAll surroundings
          [{ parameters := definition.parameters, temporaries }] body draft = result at ended
        generalize Expression.prepareAll surroundings.plain
          [{ parameters := definition.parameters, temporaries }] body other = resultToo at ended
        cases ended with
        | error aligned => exact .error aligned
        | ok same alignedAfter =>
            cases same
            refine .ok ?_ alignedAfter
            simp only [Routine.plain, alignedAfter.callSites]

end Source

end MessageMachine
