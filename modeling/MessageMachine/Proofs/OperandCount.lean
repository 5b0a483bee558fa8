import MessageMachine.Proofs.Counterpart

/-!
# Messages and the number of their operands

The spelling of a selector says how many operands its message takes.  Preparation compares this with
the operands of an ordinary send, which may become the specialized form of a control message.  A
send to super it does not look at.  So the messages of a prepared method have the operands that
their selectors ask for exactly if the sends to super do that stand in the source.
-/

namespace MessageMachine

/-- Whether the message that an expression sends, if it sends one itself, has as many operands as
its selector asks for. -/
def Code.IsCounted : Code → Prop
  | .send _ selector _ operands => operands.length = selector.arity
  | .control _ _ _ selector _ operands => operands.length = selector.arity
  | .superSend _ _ selector operands => operands.length = selector.arity
  | _ => True

/-- Whether an expression is a send to super. -/
def Code.IsSuperSend : Code → Prop
  | .superSend _ _ _ _ => True
  | _ => False

namespace Source

/-- Whether the message that an expression sends has as many operands as its selector asks for. -/
def Expression.IsCounted : Expression → Prop
  | .send _ selector operands => operands.length = selector.arity
  | .superSend selector operands => operands.length = selector.arity
  | _ => True

/-- Whether the sends to super in a method have as many operands as their selectors ask for. -/
def MethodDefinition.CountsSuperSends (definition : MethodDefinition) : Prop :=
  ∀ temporaries body, definition.body = .expressions temporaries body →
    ∀ scopes selector operands,
      Stands [{ parameters := definition.parameters, temporaries }] body scopes
        (.superSend selector operands) → operands.length = selector.arity

namespace Expression

variable {superclass : Option ClassRef} {specializeControl : Bool} {expression : Expression}
  {code : Code}

/-- Preparation keeps the number of operands. -/
theorem Becomes.isCounted_iff (becomes : expression.Becomes superclass specializeControl code) :
    code.IsCounted ↔ expression.IsCounted := by
  cases becomes with
  | send _ _ operands | control _ _ operands | superSend _ operands =>
      simp only [Code.IsCounted, IsCounted, operands.length_eq]
  | self | readSlot | readField | writeSlot | writeField | global | answer | literal | block =>
      exact Iff.rfl

/-- What is sound is counted, unless it becomes a send to super. -/
theorem Sound.isCounted {fields : Nat} {scopes : List Scope}
    (sound : expression.Sound fields superclass scopes)
    (becomes : expression.Becomes superclass specializeControl code)
    (ordinary : ¬ code.IsSuperSend) : expression.IsCounted := by
  cases becomes with
  | send | control => exact sound
  | superSend => exact absurd trivial ordinary
  | self | readSlot | readField | writeSlot | writeField | global | answer | literal | block =>
      trivial

end Expression

end Source

/-- Every message of an accepted method that is not sent to super has as many operands as its
selector asks for, whether it is sent or run as a control message, and however deep in blocks,
operands, assignments and returns it stands.  All messages do exactly if the sends to super do that
stand in the source: what preparation makes of a send to super has as many operands as the source
gives it, whatever the selector. -/
theorem messages_take_their_operands {image after : Image} {holder : ClassRef}
    {definition : Source.MethodDefinition} {routine : Routine}
    (accepted : Image.prepareMethod holder definition image = .ok routine after) :
    (∀ code, Code.Encloses routine.body code → ¬ code.IsSuperSend → code.IsCounted) ∧
    ((∀ code, Code.Encloses routine.body code → code.IsCounted) ↔
      definition.CountsSuperSends) := by
  obtain ⟨sites, prepared, -⟩ := Image.prepareMethod_eq_ok_iff.mp accepted
  obtain ⟨temporaries, body, codes, given, -, preparedAll, rfl⟩ :=
    Source.MethodDefinition.prepared_of_prepare prepared
  have becomes := Source.Expression.becomes_of_prepareAll body preparedAll
  have allSound := Source.Expression.allSound_of_prepareAll body preparedAll
  have ordinary : ∀ code, Code.Encloses codes code → ¬ code.IsSuperSend → code.IsCounted := by
    intro code encloses plain
    obtain ⟨around, expression, stands, becomes⟩ :=
      Source.Expression.stands_of_encloses encloses becomes
    exact becomes.isCounted_iff.mpr ((allSound around expression stands).isCounted becomes plain)
  refine ⟨ordinary, fun counted => ?_, fun counts code encloses => ?_⟩
  · intro temporaries body givenToo scopes selector operands stands
    cases given.symm.trans givenToo
    obtain ⟨code, encloses, becomes⟩ := Source.Expression.encloses_of_stands stands becomes
    exact becomes.isCounted_iff.mp (counted code encloses)
  · by_cases plain : code.IsSuperSend
    · obtain ⟨around, expression, stands, becomes⟩ :=
        Source.Expression.stands_of_encloses encloses becomes
      rw [becomes.isCounted_iff]
      cases becomes with
      | superSend => exact counts temporaries body given around _ _ stands
      | _ => exact plain.elim
    · exact ordinary code encloses plain

/-- What is found to be accepted is prepared. -/
theorem Image.exists_of_accepts {image : Image} {holder : ClassRef}
    {definition : Source.MethodDefinition}
    (accepts : ((prepareMethod holder definition).run' image).isSome = true) :
    ∃ routine after, prepareMethod holder definition image = .ok routine after := by
  rw [Defining.run'_eq] at accepts
  split at accepts
  · next found => exact ⟨_, _, found⟩
  · cases accepts

/-- A method that tells super to perform a message, and does not say which. -/
def lackingMethod : Source.MethodDefinition where
  selector := "run"
  parameters := 0
  body := .expressions 0 [.answer (.superSend "perform:" []) ⟨0, 0⟩]

/-- The method is accepted for the class of integers, although the message of its one send takes an
operand and has none. -/
theorem super_send_lacks_its_operand :
    ∃ routine after, Image.prepareMethod ⟨15⟩ lackingMethod (.initial .plain .standard false) =
        .ok routine after ∧
      ¬ ∀ code, Code.Encloses routine.body code → code.IsCounted := by
  obtain ⟨routine, after, accepted⟩ := @Image.exists_of_accepts (.initial .plain .standard false)
    ⟨15⟩ lackingMethod (by decide +kernel)
  refine ⟨routine, after, accepted, fun counted => ?_⟩
  obtain ⟨sites, prepared, -⟩ := Image.prepareMethod_eq_ok_iff.mp accepted
  obtain ⟨_, _, codes, given, -, preparedAll, rfl⟩ :=
    Source.MethodDefinition.prepared_of_prepare prepared
  cases given
  have stands : Source.Stands [⟨0, 0⟩] [.answer (.superSend "perform:" []) ⟨0, 0⟩] [⟨0, 0⟩]
      (.superSend "perform:" []) := .part List.mem_cons_self (.here List.mem_cons_self)
  obtain ⟨code, encloses, becomes⟩ := Source.Expression.encloses_of_stands stands
    (Source.Expression.becomes_of_prepareAll _ preparedAll)
  have none : ([] : List Source.Expression).length = Selector.arity "perform:" :=
    becomes.isCounted_iff.mp (counted code encloses)
  exact absurd none (by decide +kernel)

/-- A method that keeps a block, in which a block of a control message tells super to perform a
message. -/
def deepMethod : Source.MethodDefinition where
  selector := "run:"
  parameters := 1
  body := .expressions 1 [.write (.slot ⟨.temporary, 0, 0⟩) (.block 0 0
    [.send (.read (.slot ⟨.argument, 1, 0⟩)) "ifTrue:"
      [.block 0 0 [.answer (.superSend "perform:" [.self]) ⟨0, 0⟩]]])]

/-- With the message given, every send of the method has its operands. -/
theorem messages_take_their_operands_deep :
    ∃ routine after, Image.prepareMethod ⟨15⟩ deepMethod (.initial .plain .standard false) =
        .ok routine after ∧
      ∀ code, Code.Encloses routine.body code → code.IsCounted := by
  obtain ⟨routine, after, accepted⟩ := @Image.exists_of_accepts (.initial .plain .standard false)
    ⟨15⟩ deepMethod (by decide +kernel)
  refine ⟨routine, after, accepted, (messages_take_their_operands accepted).2.mpr ?_⟩
  intro temporaries body given scopes selector operands stands
  cases given
  obtain ⟨-, rfl, rfl⟩ : scopes = [⟨0, 0⟩, ⟨0, 0⟩, ⟨1, 1⟩] ∧
      selector = "perform:" ∧ operands = [.self] := by
    simpa [deepMethod, Source.stands_cons, Source.not_stands_nil, Source.Expression.parts]
      using stands
  decide +kernel

end MessageMachine
