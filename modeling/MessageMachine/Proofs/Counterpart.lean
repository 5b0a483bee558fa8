import MessageMachine.Proofs.Acceptance
import MessageMachine.Proofs.Return

/-!
# Source expressions and their counterparts in code

Code is the source, node for node.  So every expression that stands in a method, in whatever nesting
of sends and blocks, has its counterpart in the prepared body, and all code in the body is the
counterpart of such an expression.  What is known of the one can be said of the other.
-/

namespace MessageMachine

namespace Source.Expression

variable {superclass : Option ClassRef} {specializeControl : Bool}

/-- The parts of an expression become the parts of its prepared form. -/
theorem Becomes.parts {expression : Expression} {code : Code}
    (becomes : expression.Becomes superclass specializeControl code) :
    List.Forall₂ (Becomes superclass specializeControl) expression.parts code.parts := by
  cases becomes with
  | writeSlot value | writeField value | answer value => exact .cons value .nil
  | send _ receiver operands => exact .cons receiver operands
  | control _ receiver operands => exact .cons receiver operands
  | superSend _ operands => exact operands
  | self | readSlot | readField | global | literal | block => exact .nil

/-- All code in a prepared body is what some expression became that stands in the source. -/
theorem stands_of_encloses {codes : List Code} {code : Code} (encloses : Code.Encloses codes code)
    {scopes : List Scope} {body : List Expression}
    (all : List.Forall₂ (Becomes superclass specializeControl) body codes) :
    ∃ around expression, Stands scopes body around expression ∧
      expression.Becomes superclass specializeControl code := by
  induction encloses generalizing scopes body with
  | here member =>
      obtain ⟨expression, belongs, becomes⟩ := (related_of_forall₂ all).2 _ member
      exact ⟨scopes, expression, .here belongs, becomes⟩
  | part member _ inductionHypothesis =>
      obtain ⟨outer, belongs, becomes⟩ := (related_of_forall₂ all).2 _ member
      obtain ⟨around, expression, stands, found⟩ := inductionHypothesis becomes.parts
      exact ⟨around, expression, .part belongs stands, found⟩
  | block member _ inductionHypothesis =>
      obtain ⟨outer, belongs, becomes⟩ := (related_of_forall₂ all).2 _ member
      cases becomes with
      | block inside =>
          obtain ⟨around, expression, stands, found⟩ := inductionHypothesis inside
          exact ⟨around, expression, .block belongs stands, found⟩

/-- Every expression that stands in the source became code in the prepared body. -/
theorem encloses_of_stands {scopes around : List Scope} {body : List Expression}
    {expression : Expression} (stands : Stands scopes body around expression) {codes : List Code}
    (all : List.Forall₂ (Becomes superclass specializeControl) body codes) :
    ∃ code, Code.Encloses codes code ∧ expression.Becomes superclass specializeControl code := by
  induction stands generalizing codes with
  | here member =>
      obtain ⟨code, belongs, becomes⟩ := (related_of_forall₂ all).1 _ member
      exact ⟨code, .here belongs, becomes⟩
  | part member _ inductionHypothesis =>
      obtain ⟨outer, belongs, becomes⟩ := (related_of_forall₂ all).1 _ member
      obtain ⟨code, encloses, found⟩ := inductionHypothesis becomes.parts
      exact ⟨code, .part belongs encloses, found⟩
  | block member _ inductionHypothesis =>
      obtain ⟨outer, belongs, becomes⟩ := (related_of_forall₂ all).1 _ member
      cases becomes with
      | block inside =>
          obtain ⟨code, encloses, found⟩ := inductionHypothesis inside
          exact ⟨code, .block belongs encloses, found⟩

end Source.Expression

end MessageMachine
