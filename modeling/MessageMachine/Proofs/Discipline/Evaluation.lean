import MessageMachine.Proofs.Discipline.Sending

/-!
# Evaluating code under a discipline

An expression first has its parts evaluated and then does something with their values.  Put this
way, evaluation is one induction over the parts of expressions, with one case for what each kind of
expression does in the end.

The same induction serves for the expressions that are evaluated on the way.  They are begun in
images where the discipline holds, and what they escape with is what the whole evaluation escapes
with.
-/

namespace MessageMachine

namespace Code

/-- What an expression does with the values of its parts.  The receiver is the one of the frame. -/
def finish (machine : Machine) (frame : FrameRef) (receiver : Value) :
    Code → List Value → Eval Value
  | .write slot _, [value] => do
      match (← get).slotHome? frame slot with
      | some home =>
          Eval.modifyFrame home fun frame => frame.setSlot slot.kind slot.index value
          return value
      | none => Eval.fail (.internal (.slotNotWritten slot))
  | .writeField site index _, [value] => do
      let receiver := ((← get).frameAt frame).receiver
      if ← modifyGet fun image => image.writeFieldAt site receiver index value then return value
      else Eval.fail (.internal (.fieldNotWritten index))
  | .send site selector _ _, first :: operands => machine.sendAt site selector first operands
  | .superSend site origin selector _, operands =>
      machine.sendSuperAt site origin selector receiver operands
  | .control controlSite message site selector _ _, first :: operands =>
      machine.controlAt controlSite message site selector first operands
  | .answer _ span, [value] => do
      let image ← get
      let home := image.outermost frame
      if (image.frameAt home).live then throw (.unwinding value home)
      else
        let method := image.frameName home
        Eval.note fun _ => .returnEscaped method span
        Eval.fail (.escapedReturn method span)
  | code, _ => code.evaluate machine frame

theorem sizeOf_lt_of_mem_parts {code part : Code} (member : part ∈ code.parts) :
    sizeOf part < sizeOf code := by
  have operand : ∀ {operands : List Code}, part ∈ operands → sizeOf part < sizeOf operands :=
    List.sizeOf_lt_of_mem
  cases code <;> simp only [parts, List.mem_cons, List.not_mem_nil, or_false] at member
  case write =>
      subst member
      simp only [write.sizeOf_spec]
      omega
  case writeField =>
      subst member
      simp only [writeField.sizeOf_spec]
      omega
  case answer =>
      subst member
      simp only [answer.sizeOf_spec]
      omega
  case superSend =>
      have := operand member
      simp only [superSend.sizeOf_spec]
      omega
  case send =>
      rcases member with rfl | member
      · simp only [send.sizeOf_spec]
        omega
      · have := operand member
        simp only [send.sizeOf_spec]
        omega
  case control =>
      rcases member with rfl | member
      · simp only [control.sizeOf_spec]
        omega
      · have := operand member
        simp only [control.sizeOf_spec]
        omega

/-- Induction over the parts of expressions. -/
theorem induction_parts {good : Code → Prop}
    (step : ∀ code, (∀ part ∈ code.parts, good part) → good code) (code : Code) : good code :=
  step code fun part _ => induction_parts step part
termination_by sizeOf code
decreasing_by exact sizeOf_lt_of_mem_parts ‹_›

variable {machine : Machine} {frame : FrameRef}

theorem evaluateAll_cons (code : Code) (rest : List Code) :
    Code.evaluateAll machine frame (code :: rest) = (do
      let value ← code.evaluate machine frame
      let values ← Code.evaluateAll machine frame rest
      return value :: values) := by
  rw [Code.evaluateAll]

theorem evaluateAll_single (code : Code) {Answer : Type} (next : List Value → Eval Answer)
    (image : Image) :
    (Code.evaluateAll machine frame [code] >>= next) image =
      (code.evaluate machine frame >>= fun value => next [value]) image := by
  simp only [Code.evaluateAll, Bind.bind, EStateM.bind, Pure.pure, EStateM.pure]
  cases code.evaluate machine frame image <;> rfl

/-- An expression has its parts evaluated before it does anything. -/
theorem evaluate_eq (code : Code) (image : Image) :
    code.evaluate machine frame image =
      (Code.evaluateAll machine frame code.parts >>= fun values =>
        code.finish machine frame (image.frameAt frame).receiver values) image := by
  cases code with
  | write slot value =>
      rw [Code.parts, evaluateAll_single, Code.evaluate]
      rfl
  | writeField site index value =>
      rw [Code.parts, evaluateAll_single, Code.evaluate]
      rfl
  | answer value span =>
      rw [Code.parts, evaluateAll_single, Code.evaluate]
      rfl
  | send site selector receiver operands =>
      simp only [Code.parts, Code.evaluate, evaluateAll_cons, bind_assoc, pure_bind, finish]
  | superSend site origin selector operands =>
      simp only [Code.parts, Code.evaluate, finish]
      rfl
  | control controlSite message site selector receiver operands =>
      simp only [Code.parts, Code.evaluate, evaluateAll_cons, bind_assoc, pure_bind, finish]
  | _ => simp only [Code.parts, Code.evaluateAll, pure_bind, finish]

theorem evaluateAll_alone {code : Code} {image after : Image} {value : Value}
    (evaluated : code.evaluate machine frame image = .ok value after) :
    Code.evaluateAll machine frame [code] image = .ok [value] after := by
  simp only [Code.evaluateAll, Bind.bind, EStateM.bind, evaluated]
  rfl

theorem evaluateAll_append (earlier later : List Code) :
    Code.evaluateAll machine frame (earlier ++ later) = (do
      let values ← Code.evaluateAll machine frame earlier
      let others ← Code.evaluateAll machine frame later
      return values ++ others) := by
  induction earlier with
  | nil => simp only [List.nil_append, Code.evaluateAll, pure_bind, bind_pure]
  | cons code rest inductionHypothesis =>
      simp only [List.cons_append, evaluateAll_cons, inductionHypothesis, bind_assoc, pure_bind]

theorem evaluateAll_around (earlier : List Code) (code : Code) (later : List Code) :
    Code.evaluateAll machine frame (earlier ++ code :: later) = (do
      let values ← Code.evaluateAll machine frame earlier
      let value ← code.evaluate machine frame
      let others ← Code.evaluateAll machine frame later
      return values ++ value :: others) := by
  simp only [evaluateAll_append, evaluateAll_cons, bind_assoc, pure_bind]

namespace Visits

variable {code part : Code} {rest : List Code} {image between final : Image}

theorem first : Visits machine frame (code :: rest) image code image :=
  @Visits.here machine frame [] rest code [] image image rfl

theorem within (visits : Visits machine frame code.parts image part final) :
    Visits machine frame (code :: rest) image part final :=
  @Visits.inside machine frame [] rest code part [] image image final rfl visits

/-- What is evaluated after some expressions were. -/
theorem after {earlier codes : List Code} {values : List Value}
    (evaluated : Code.evaluateAll machine frame earlier image = .ok values between)
    (visits : Visits machine frame codes between part final) :
    Visits machine frame (earlier ++ codes) image part final := by
  have begun : ∀ {more others there},
      Code.evaluateAll machine frame more between = .ok others there →
      Code.evaluateAll machine frame (earlier ++ more) image = .ok (values ++ others) there := by
    intro more others there evaluatedThem
    simp only [evaluateAll_append, Bind.bind, EStateM.bind, evaluated, evaluatedThem]
    rfl
  cases visits with
  | here evaluatedThem =>
      rw [← List.append_assoc]
      exact .here (begun evaluatedThem)
  | inside evaluatedThem inner =>
      rw [← List.append_assoc]
      exact .inside (begun evaluatedThem) inner

/-- What is evaluated while some expressions are is evaluated while more are. -/
theorem extend {codes more : List Code} (visits : Visits machine frame codes image part final) :
    Visits machine frame (codes ++ more) image part final := by
  cases visits with
  | here evaluated =>
      rw [List.append_assoc]
      exact .here evaluated
  | inside evaluated inner =>
      rw [List.append_assoc]
      exact .inside evaluated inner

/-- An escape from an expression is one from all of them. -/
theorem escape {codes : List Code} {escape : Escape} {left : Image}
    (visits : Visits machine frame codes image code between)
    (escaped : code.evaluate machine frame between = .error escape left) :
    Code.evaluateAll machine frame codes image = .error escape left := by
  have through : ∀ {earlier later : List Code} {outer : Code} {values : List Value}
      {start there : Image}, Code.evaluateAll machine frame earlier start = .ok values there →
      outer.evaluate machine frame there = .error escape left →
      Code.evaluateAll machine frame (earlier ++ outer :: later) start = .error escape left := by
    intro earlier later outer values start there evaluated escapedThere
    rw [evaluateAll_append]
    simp only [evaluateAll_cons, Bind.bind, EStateM.bind, evaluated, escapedThere]
  induction visits with
  | here evaluated => exact through evaluated escaped
  | @inside earlier later outer part values start there final evaluated _ inductionHypothesis =>
      refine through evaluated ?_
      rw [Code.evaluate_eq]
      simp only [Bind.bind, EStateM.bind, inductionHypothesis escaped]

end Visits

end Code

namespace Discipline

variable {D : Discipline} {machine : Machine} {start : Image} {frame : FrameRef}

section Data

variable (laws : D.Laws)
include laws

mutual

theorem datum_keeps {start : Image} (holds : D.Holds start) (datum : Datum)
    (numbers : ∀ number ∈ datum.bigNumbers, D.Good start (.big number)) :
    D.Evaluates machine start fun _ => datum.evaluate := by
  cases datum with
  | array items =>
      refine Keeps.bind laws.toOrder (data_keep holds items numbers)
        fun after values holdsAfter _ known => ?_
      exact laws.makeArray holdsAfter fun value member => known value (List.mem_toArray.mp member)
  | big number => exact Keeps.pure laws.toOrder holds (numbers number List.mem_cons_self)
  | _ => exact Keeps.pure laws.toOrder holds (laws.plain start trivial trivial)

theorem data_keep {start : Image} (holds : D.Holds start) (items : List Datum)
    (numbers : ∀ number ∈ Datum.allBigNumbers items, D.Good start (.big number)) :
    D.Keeps D.AllGood machine start fun _ => Datum.evaluateAll items := by
  cases items with
  | nil => exact Keeps.pure laws.toOrder holds (.nil start)
  | cons item rest =>
      refine Keeps.bind laws.toOrder
        (datum_keeps holds item fun number member =>
          numbers number (List.mem_append_left _ member))
        fun after value holdsAfter later known => ?_
      refine Keeps.bind laws.toOrder
        (data_keep holdsAfter rest fun number member =>
          laws.keep later (numbers number (List.mem_append_right _ member)))
        fun final values holdsFinal later allKnown => ?_
      exact Keeps.pure laws.toOrder holdsFinal (.cons (laws.keep later known) allKnown)

end

end Data

section Control

variable (laws : D.Laws) (holds : D.Holds start)
include laws holds

/-- A loop has as many rounds as the machine is patient. -/
theorem patientLoop_keeps {condition body : BlockRef} (expected : Bool)
    (conditionKnown : D.Good start (.block condition)) (bodyKnown : D.Good start (.block body))
    (plain : (start.blockAt condition).parameters = 0 ∧ (start.blockAt body).parameters = 0) :
    D.Evaluates machine start fun machine =>
      machine.loop condition body expected machine.patience := by
  refine Keeps.congr ?_ (loop_keeps laws holds expected machine.patience holds conditionKnown
    bodyKnown plain.1 plain.2 (laws.refl start))
  intro another patient
  rw [patient]

/-- A control message is run on the spot or not, whatever the machine is. -/
theorem run?_keeps (message : ControlMessage) {receiver : Value} {operands : List Value}
    (known : D.Good start receiver) (allKnown : D.AllGood start operands) :
    (∀ other, message.run? other start receiver operands = none) ∨
      ∃ body, D.Evaluates machine start body ∧
        ∀ other, message.run? other start receiver operands = some (body other) := by
  have quiet : D.Evaluates machine start fun _ => pure .nil :=
    Keeps.pure laws.toOrder holds (laws.plain start trivial trivial)
  have call : ∀ {block : BlockRef}, (start.blockAt block).parameters = 0 →
      D.Good start (.block block) →
      D.Evaluates machine start fun machine => machine.activate (.block block []) :=
    fun plain blockKnown => call_keeps laws holds holds blockKnown plain (laws.refl start)
  unfold ControlMessage.run?
  dsimp only
  split
  · split
    · next truth body plain =>
        cases truth with
        | true => exact Or.inr ⟨_, call plain allKnown.head, fun _ => rfl⟩
        | false => exact Or.inr ⟨_, quiet, fun _ => rfl⟩
    · exact Or.inl fun _ => rfl
  · split
    · next truth body plain =>
        cases truth with
        | true => exact Or.inr ⟨_, quiet, fun _ => rfl⟩
        | false => exact Or.inr ⟨_, call plain allKnown.head, fun _ => rfl⟩
    · exact Or.inl fun _ => rfl
  · split
    · next truth first second plain =>
        cases truth with
        | true => exact Or.inr ⟨_, call plain.1 allKnown.head, fun _ => rfl⟩
        | false => exact Or.inr ⟨_, call plain.2 allKnown.tail.head, fun _ => rfl⟩
    · exact Or.inl fun _ => rfl
  · split
    · next truth first second plain =>
        cases truth with
        | true => exact Or.inr ⟨_, call plain.2 allKnown.tail.head, fun _ => rfl⟩
        | false => exact Or.inr ⟨_, call plain.1 allKnown.head, fun _ => rfl⟩
    · exact Or.inl fun _ => rfl
  · split
    · next plain =>
        exact Or.inr ⟨_, patientLoop_keeps laws holds true known allKnown.head plain, fun _ => rfl⟩
    · exact Or.inl fun _ => rfl
  · split
    · next plain =>
        exact Or.inr ⟨_, patientLoop_keeps laws holds false known allKnown.head plain, fun _ => rfl⟩
    · exact Or.inl fun _ => rfl
  · exact Or.inl fun _ => rfl

theorem controlAt_keeps {code : Code} {controlSite : ControlSiteRef} {message : ControlMessage}
    {site : CallSiteRef} {selector : Selector} {receiver : Value} {operands : List Value}
    (fits : D.Fits start frame code) (sending : code.sending? = some (site, selector))
    (known : D.Good start receiver) (allKnown : D.AllGood start operands)
    (given : ∃ operands earlier, D.Given frame code (receiver :: operands) earlier) :
    D.Evaluates machine start fun machine =>
      machine.controlAt controlSite message site selector receiver operands := by
  have sent : ∀ {image}, D.Holds image → D.Later start image →
      D.Evaluates machine image fun machine => machine.sendAt site selector receiver operands :=
    fun holdsThere later => sendAt_keeps laws holdsThere (laws.carry later fits) sending
      (laws.keep later known) (laws.keepAll later allKnown) given
  refine Keeps.get ?_
  cases start.sites.controls.get controlSite with
  | generic => exact sent holds (laws.refl start)
  | specialized =>
      dsimp only
      rcases @run?_keeps D machine start laws holds message _ _ known allKnown with
        none | ⟨body, kept, some⟩
      · refine Keeps.congr (fun another _ => by rw [none another]) ?_
        have settled : D.Keeps (fun _ _ => True) machine start
            fun _ => modify fun image => image.generalizeControl controlSite :=
          laws.perform holds (.settle controlSite) trivial rfl trivial
        refine Keeps.bind laws.toOrder settled fun after _ holdsAfter later _ => ?_
        refine Keeps.bind laws.toOrder (laws.note holdsAfter _)
          fun noted _ holdsNoted further _ => ?_
        exact sent holdsNoted (laws.trans later further)
      · exact Keeps.congr (fun another _ => by rw [some another]) kept

end Control

section Finishing

variable (laws : D.Laws) (holds : D.Holds start)
include laws holds

theorem write_keeps {slot : Slot} {code : Code} {value : Value} (receiver : Value)
    (fits : D.Fits start frame (.write slot code)) (known : D.Good start value) :
    D.Evaluates machine start fun machine =>
      (Code.write slot code).finish machine frame receiver [value] := by
  refine Keeps.get ?_
  cases found : start.slotHome? frame slot with
  | none => exact Keeps.throw laws.toOrder holds rfl (laws.unwritten holds fits found)
  | some home =>
      have stepped := laws.write holds fits known found
      have written : D.Keeps (fun _ _ => True) machine start fun _ =>
          Eval.modifyFrame home fun frame => frame.setSlot slot.kind slot.index value :=
        Keeps.modifyGet stepped.1 stepped.2 trivial
      refine Keeps.bind laws.toOrder written fun after _ holdsAfter later _ => ?_
      exact Keeps.pure laws.toOrder holdsAfter (laws.keep later known)

theorem writeField_keeps {site : FieldSiteRef} {index : Nat} {code : Code} {value : Value}
    (receiver : Value) (fits : D.Fits start frame (.writeField site index code))
    (known : D.Good start value)
    (given : D.Given frame (.writeField site index code) [value] start) :
    D.Evaluates machine start fun machine =>
      (Code.writeField site index code).finish machine frame receiver [value] := by
  obtain ⟨⟨holdsThere, later⟩, fine⟩ := laws.writeField holds fits known given
  refine Keeps.get ?_
  have written : D.Keeps (fun image done => done = false →
      D.Fine image (.failed { failure := .internal (.fieldNotWritten index), backtrace := #[] }))
      machine start fun _ => modifyGet fun image =>
        image.writeFieldAt site (start.frameAt frame).receiver index value :=
    Keeps.modifyGet holdsThere later fine
  refine Keeps.bind laws.toOrder written fun after done holdsAfter laterAfter counted => ?_
  cases done with
  | true => exact Keeps.pure laws.toOrder holdsAfter (laws.keep laterAfter known)
  | false => exact Keeps.throw laws.toOrder holdsAfter rfl (counted rfl)

theorem answer_keeps {code : Code} {span : Span} {value : Value} (receiver : Value)
    (fits : D.Fits start frame (.answer code span)) (known : D.Good start value) :
    D.Evaluates machine start fun machine =>
      (Code.answer code span).finish machine frame receiver [value] := by
  refine Keeps.get ?_
  dsimp only
  split
  · next live => exact Keeps.throw laws.toOrder holds trivial (laws.answer holds fits known live)
  · refine Keeps.bind laws.toOrder (laws.note holds _) fun noted _ holdsNoted _ _ => ?_
    exact laws.fail holdsNoted fun _ => Failure.noConfusion

/-- What an expression without parts does. -/
theorem leaf_keeps {code : Code} (leaf : code.parts = []) (fits : D.Fits start frame code)
    (here : D.Here frame code start) (alone : ∀ site origin selector operands,
      code ≠ .superSend site origin selector operands) :
    D.Evaluates machine start fun machine => code.evaluate machine frame := by
  cases code with
  | self =>
      simp only [Code.evaluate]
      exact Keeps.get (Keeps.pure laws.toOrder holds (laws.receiver holds frame))
  | read slot =>
      simp only [Code.evaluate]
      refine Keeps.get ?_
      cases found : start.slot? frame slot with
      | none => exact Keeps.throw laws.toOrder holds rfl (laws.read holds fits found)
      | some value => exact Keeps.pure laws.toOrder holds (laws.slot holds found)
  | readField site index =>
      simp only [Code.evaluate]
      obtain ⟨⟨holdsThere, later⟩, fine⟩ := laws.readField holds fits
      refine Keeps.get ?_
      have answered : D.Keeps (fun image found => (∀ value, found = some value →
          D.Good image value) ∧ (found = none → D.Fine image
            (.failed { failure := .internal (.fieldNotRead index), backtrace := #[] })))
          machine start fun _ => modifyGet fun image =>
            image.readFieldAt site (start.frameAt frame).receiver index :=
        Keeps.modifyGet holdsThere later
          ⟨fun value found => laws.keep later (laws.fieldAt holds found), fine⟩
      refine Keeps.bind laws.toOrder answered fun after found holdsAfter _ counted => ?_
      cases found with
      | none => exact Keeps.throw laws.toOrder holdsAfter rfl (counted.2 rfl)
      | some value => exact Keeps.pure laws.toOrder holdsAfter (counted.1 value rfl)
  | global name =>
      simp only [Code.evaluate]
      refine Keeps.get ?_
      cases found : start.global? name with
      | none => exact Keeps.get (reportGlobal_keeps laws holds name (laws.receiver holds frame))
      | some value => exact Keeps.pure laws.toOrder holds (laws.global holds found)
  | literal datum =>
      simp only [Code.evaluate]
      exact datum_keeps laws holds datum (laws.literal fits)
  | block parameters temporaries captures body =>
      simp only [Code.evaluate]
      have stepped := laws.block holds fits here
      exact Keeps.modifyGet stepped.1 stepped.2 (laws.closure start _)
  | superSend site origin selector operands =>
      exact absurd rfl (alone site origin selector operands)
  | write | writeField | send | control | answer => cases leaf

theorem finish_keeps {earlier : Image} {code : Code} {values : List Value}
    (holdsEarlier : D.Holds earlier) (fits : D.Fits earlier frame code)
    (here : D.Here frame code earlier) (later : D.Later earlier start)
    (leaf : code.parts = [] → start = earlier) (count : values.length = code.parts.length)
    (allKnown : D.AllGood start values) (given : D.Given frame code values start) :
    D.Evaluates machine start fun machine =>
      code.finish machine frame (earlier.frameAt frame).receiver values := by
  have fitsHere : D.Fits start frame code := laws.carry later fits
  cases code with
  | write slot value =>
      obtain ⟨value, rfl⟩ := List.length_eq_one_iff.mp count
      exact write_keeps laws holds _ fitsHere allKnown.head
  | writeField site index value =>
      obtain ⟨value, rfl⟩ := List.length_eq_one_iff.mp count
      exact writeField_keeps laws holds _ fitsHere allKnown.head given
  | answer value span =>
      obtain ⟨value, rfl⟩ := List.length_eq_one_iff.mp count
      exact answer_keeps laws holds _ fitsHere allKnown.head
  | send site selector receiver operands =>
      cases values with
      | nil => cases count
      | cons first rest =>
          exact sendAt_keeps laws holds fitsHere rfl allKnown.head allKnown.tail ⟨_, _, given⟩
  | control controlSite message site selector receiver operands =>
      cases values with
      | nil => cases count
      | cons first rest =>
          exact controlAt_keeps laws holds fitsHere rfl allKnown.head allKnown.tail ⟨_, _, given⟩
  | superSend site origin selector operands =>
      exact sendSuperAt_keeps laws holds holdsEarlier fits later allKnown ⟨_, given⟩
  | _ =>
      have same := leaf rfl
      subst same
      exact leaf_keeps laws holds rfl fits here fun _ _ _ _ => Code.noConfusion

end Finishing

section Evaluation

/-- What is asked of expressions for them to be evaluated. -/
structure Ready (D : Discipline) (machine : Machine) (frame : FrameRef) (codes : List Code)
    (image : Image) : Prop where
  holds : D.Holds image
  fits : ∀ code ∈ codes, D.Fits image frame code
  here : ∀ part there, Code.Visits machine frame codes image part there → D.Here frame part there
  given : ∀ part there values after, Code.Visits machine frame codes image part there →
    Code.evaluateAll machine frame part.parts there = .ok values after →
    D.Given frame part values after

/-- As many values as there are expressions. -/
def Covers (D : Discipline) (codes : List Code) (image : Image) (values : List Value) : Prop :=
  D.AllGood image values ∧ values.length = codes.length

variable (laws : D.Laws) {code : Code} {rest codes : List Code}

namespace Ready

theorem earlier {earlier more : List Code}
    (ready : D.Ready machine frame (earlier ++ more) start) :
    D.Ready machine frame earlier start where
  holds := ready.holds
  fits := fun other member => ready.fits other (List.mem_append_left more member)
  here := fun part there visits => ready.here part there visits.extend
  given := fun part there values after visits =>
    ready.given part there values after visits.extend

include laws in
theorem after {earlier more : List Code} {values : List Value} {after : Image}
    (ready : D.Ready machine frame (earlier ++ more) start)
    (evaluated : Code.evaluateAll machine frame earlier start = .ok values after)
    (holds : D.Holds after) (later : D.Later start after) : D.Ready machine frame more after where
  holds := holds
  fits := fun other member =>
    laws.carry later (ready.fits other (List.mem_append_right earlier member))
  here := fun part there visits => ready.here part there (visits.after evaluated)
  given := fun part there values final visits =>
    ready.given part there values final (visits.after evaluated)

theorem head (ready : D.Ready machine frame (code :: rest) start) :
    D.Ready machine frame [code] start :=
  @earlier D machine start frame [code] rest ready

include laws in
theorem tail {value : Value} {after : Image} (ready : D.Ready machine frame (code :: rest) start)
    (evaluated : code.evaluate machine frame start = .ok value after) (holds : D.Holds after)
    (later : D.Later start after) : D.Ready machine frame rest after :=
  Ready.after laws ready (Code.evaluateAll_alone evaluated) holds later

include laws in
theorem parts (ready : D.Ready machine frame [code] start) :
    D.Ready machine frame code.parts start where
  holds := ready.holds
  fits := laws.parts (ready.fits code List.mem_cons_self)
  here := fun part there visits => ready.here part there visits.within
  given := fun part there values after visits =>
    ready.given part there values after visits.within

end Ready

include laws

theorem codes_keep_of (kept : ∀ code ∈ codes, ∀ {image}, D.Ready machine frame [code] image →
      D.Evaluates machine image fun machine => code.evaluate machine frame)
    (ready : D.Ready machine frame codes start) :
    D.Keeps (D.Covers codes) machine start fun machine =>
      Code.evaluateAll machine frame codes := by
  induction codes generalizing start with
  | nil =>
      simp only [Code.evaluateAll]
      exact Keeps.pure laws.toOrder ready.holds ⟨.nil start, rfl⟩
  | cons code rest inductionHypothesis =>
      simp only [Code.evaluateAll_cons]
      refine Keeps.bind_of_eq laws.toOrder (kept code List.mem_cons_self ready.head)
        fun after value evaluated holds later known => ?_
      have others := inductionHypothesis
        (fun other member => kept other (List.mem_cons_of_mem code member))
        (ready.tail laws evaluated holds later)
      refine Keeps.bind laws.toOrder others fun final values holdsFinal further covers => ?_
      exact Keeps.pure laws.toOrder holdsFinal
        ⟨.cons (laws.keep further known) covers.1, by simp [covers.2]⟩

/-- What is left to do for an expression once its parts have values. -/
theorem finish_keeps_of (ready : D.Ready machine frame [code] start) {values : List Value}
    {after : Image} (evaluated : Code.evaluateAll machine frame code.parts start = .ok values after)
    (holds : D.Holds after) (later : D.Later start after)
    (covers : D.Covers code.parts after values) :
    D.Evaluates machine after fun machine =>
      code.finish machine frame (start.frameAt frame).receiver values := by
  refine finish_keeps laws holds ready.holds (ready.fits code List.mem_cons_self)
    (ready.here code start .first) later (fun leaf => ?_) covers.2 covers.1
    (ready.given code start values after .first evaluated)
  rw [leaf, Code.evaluateAll] at evaluated
  cases evaluated
  rfl

/-- Expressions keep to a discipline. -/
theorem code_keeps (ready : D.Ready machine frame [code] start) :
    D.Evaluates machine start fun machine => code.evaluate machine frame := by
  induction code using Code.induction_parts generalizing start with
  | step code inductionHypothesis =>
      refine Keeps.congr (fun another _ => Code.evaluate_eq code start) ?_
      exact Keeps.bind_of_eq laws.toOrder
        (codes_keep_of laws inductionHypothesis (ready.parts laws))
        fun after values evaluated holds later covers =>
          finish_keeps_of laws ready evaluated holds later covers

theorem codes_keep (ready : D.Ready machine frame codes start) :
    D.Keeps (D.Covers codes) machine start fun machine => Code.evaluateAll machine frame codes :=
  codes_keep_of laws (fun _ _ _ ready => code_keeps laws ready) ready

/-- Bodies keep to a discipline. -/
theorem body_keeps (ready : D.Ready machine frame codes start) :
    D.Evaluates machine start fun machine => Code.evaluateBody machine frame codes := by
  refine Keeps.bind laws.toOrder (codes_keep laws ready) fun after values holds _ covers => ?_
  refine Keeps.pure laws.toOrder holds ?_
  cases last : values.getLast? with
  | none => exact laws.plain after trivial trivial
  | some value => exact covers.1 value (List.mem_of_getLast? last)

end Evaluation

/-- An expression that is evaluated on the way. -/
structure Visit (D : Discipline) (machine : Machine) (frame : FrameRef) (codes : List Code)
    (start : Image) (code : Code) (image : Image) : Prop where
  ready : D.Ready machine frame [code] image
  later : D.Later start image
  trusts : D.Trusts machine image fun machine => code.evaluate machine frame
  rest : D.Later (Eval.left (code.evaluate machine frame image))
    (Eval.left (Code.evaluateAll machine frame codes start))

section Visiting

variable (laws : D.Laws) {code : Code} {codes : List Code} {image : Image}
include laws

/-- An expression that comes after others that have values. -/
theorem Visit.around {earlier later : List Code} {values : List Value}
    (evaluated : Code.evaluateAll machine frame earlier start = .ok values image)
    (ready : D.Ready machine frame (earlier ++ code :: later) start)
    (trusts : D.Trusts machine start fun machine =>
      Code.evaluateAll machine frame (earlier ++ code :: later)) :
    D.Visit machine frame (earlier ++ code :: later) start code image := by
  have whole : D.Trusts machine start fun machine => do
      let values ← Code.evaluateAll machine frame earlier
      let value ← code.evaluate machine frame
      let others ← Code.evaluateAll machine frame later
      return values ++ value :: others :=
    trusts.congr fun another _ => by rw [Code.evaluateAll_around]
  have begun := codes_keep laws ready.earlier whole.first
  have yielded := begun.yields
  rw [evaluated] at yielded
  cases yielded with
  | ok holds laterThere covers =>
      have readyThere := ready.after laws evaluated holds laterThere
      have trustsThere := whole.rest laws.toOrder begun evaluated
      refine ⟨readyThere.head, laterThere, trustsThere.first, ?_⟩
      have rest := Keeps.bind_rest laws.toOrder (code_keeps laws readyThere.head)
        (fun after value evaluatedIt holdsAfter laterAfter known =>
          Keeps.bind laws.toOrder
            (codes_keep laws (readyThere.tail laws evaluatedIt holdsAfter laterAfter))
            fun final others holdsFinal further covered =>
              @Keeps.pure D _ (fun _ _ => True) machine final laws.toOrder holdsFinal _ trivial)
        trustsThere
      rw [Code.evaluateAll_around]
      simpa only [Bind.bind, EStateM.bind, evaluated] using rest

omit laws in
/-- What an expression asks for, its parts ask for or what is made of their values. -/
theorem Visit.trusts_finish (visit : D.Visit machine frame codes start code image) :
    D.Trusts machine image fun machine =>
      Code.evaluateAll machine frame code.parts >>= fun values =>
        code.finish machine frame (image.frameAt frame).receiver values :=
  visit.trusts.congr fun _ _ => Code.evaluate_eq code image

/-- The parts of an expression that is evaluated on the way. -/
theorem Visit.parts (visit : D.Visit machine frame codes start code image) :
    D.Obeys (D.Covers code.parts) machine image fun machine =>
      Code.evaluateAll machine frame code.parts :=
  codes_keep laws (visit.ready.parts laws) visit.trusts_finish.first

/-- What is left to do once the parts of an expression have values. -/
theorem Visit.finish (visit : D.Visit machine frame codes start code image) {values : List Value}
    {after : Image}
    (evaluated : Code.evaluateAll machine frame code.parts image = .ok values after) :
    D.Obeys D.Good machine after fun machine =>
      code.finish machine frame (image.frameAt frame).receiver values := by
  have yielded := (visit.parts laws).yields
  rw [evaluated] at yielded
  cases yielded with
  | ok holds later covers =>
      exact finish_keeps_of laws visit.ready evaluated holds later covers
        (visit.trusts_finish.rest laws.toOrder (visit.parts laws) evaluated)

/-- The parts of an expression are over when the expression is. -/
theorem Visit.later_of_parts (visit : D.Visit machine frame codes start code image) :
    D.Later (Eval.left (Code.evaluateAll machine frame code.parts image))
      (Eval.left (code.evaluate machine frame image)) := by
  rw [Code.evaluate_eq]
  exact Keeps.bind_rest laws.toOrder (codes_keep laws (visit.ready.parts laws))
    (fun after values evaluated holds later covers =>
      finish_keeps_of laws visit.ready evaluated holds later covers) visit.trusts_finish

/-- Whatever is evaluated on the way was ready to be. -/
theorem visit_of_visits (visits : Code.Visits machine frame codes start code image)
    (ready : D.Ready machine frame codes start)
    (trusts : D.Trusts machine start fun machine => Code.evaluateAll machine frame codes) :
    D.Visit machine frame codes start code image := by
  induction visits with
  | here evaluated => exact .around laws evaluated ready trusts
  | @inside earlier later outer part values start between final evaluated _ inductionHypothesis =>
      have visit := Visit.around laws evaluated ready trusts
      have inner := inductionHypothesis (visit.ready.parts laws) visit.trusts_finish.first
      exact ⟨inner.ready, laws.trans visit.later inner.later, inner.trusts,
        laws.trans inner.rest (laws.trans (visit.later_of_parts laws) visit.rest)⟩

end Visiting

end Discipline

end MessageMachine
