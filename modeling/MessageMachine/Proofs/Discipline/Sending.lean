import MessageMachine.Proofs.Discipline.Laws

/-!
# Sending under a discipline

Sends with and without a site, reports of messages that are not understood, loops and control
messages keep to a discipline.  Each of them ends in asking for an activation, and that it may be
asked for is what the lookup before it was good for.
-/

namespace MessageMachine

namespace Discipline

variable {D : Discipline} {machine : Machine} {start after : Image}

namespace AllGood

theorem nil (image : Image) : D.AllGood image [] :=
  fun _ member => by cases member

theorem cons {value : Value} {values : List Value} (known : D.Good start value)
    (allKnown : D.AllGood start values) : D.AllGood start (value :: values) := by
  intro other member
  rcases List.mem_cons.mp member with rfl | member
  · exact known
  · exact allKnown other member

theorem head {value : Value} {values : List Value} (known : D.AllGood start (value :: values)) :
    D.Good start value :=
  known value List.mem_cons_self

theorem tail {value : Value} {values : List Value} (known : D.AllGood start (value :: values)) :
    D.AllGood start values :=
  fun other member => known other (List.mem_cons_of_mem value member)

end AllGood

section Laws

variable (laws : D.Laws) {Answer : Type} {good : Image → Answer → Prop}
include laws

theorem Laws.keepAll {values : List Value} (later : D.Later start after)
    (known : D.AllGood start values) : D.AllGood after values :=
  fun value member => laws.keep later (known value member)

/-- Failures that are not due to code in the wrong place. -/
theorem Laws.fail (holds : D.Holds start) {failure : Failure}
    (ordinary : ∀ fault, failure ≠ .internal fault) :
    D.Keeps good machine start fun _ => Eval.fail failure :=
  Keeps.throw laws.toOrder holds rfl (laws.failed start #[] ordinary)

/-- A change of the image that is one of the common actions. -/
theorem Laws.perform (holds : D.Holds start) (action : Action) (may : D.May start action)
    {change : Image → Answer × Image} (same : (change start).2 = action.perform start)
    (known : good (action.perform start) (change start).1) :
    D.Keeps good machine start fun _ => modifyGet change := by
  have stepped := laws.act holds may
  rw [← same] at stepped known
  exact Keeps.modifyGet stepped.1 stepped.2 known

theorem Laws.note (holds : D.Holds start) (describe : Image → Event) :
    D.Keeps (fun _ _ => True) machine start fun _ => Eval.note describe :=
  laws.perform holds (.noteDown (start.note describe).journal) trivial
    (Image.note_eq_perform start describe) trivial

/-- Meeting names. -/
theorem Laws.meetAll (holds : D.Holds start) (names : List String) :
    D.Keeps (fun _ _ => True) machine start fun _ => modify fun image => image.meetAll names :=
  laws.perform holds (.meet names) trivial rfl trivial

theorem Laws.meet (holds : D.Holds start) (name : String) :
    D.Keeps (fun _ _ => True) machine start fun _ => Eval.meet name :=
  laws.meetAll holds [name]

/-- A subtraction of words leaves the image alone, also if the machine stops there. -/
theorem Laws.difference (holds : D.Holds start) (left right : Int64)
    {next : Int64 → Machine → Eval Answer}
    (continued : ∀ result, start.platform.difference? left right = some result →
      D.Keeps good machine start (next result)) :
    D.Keeps good machine start fun machine =>
      Eval.difference left right >>= fun result => next result machine := by
  cases found : start.platform.difference? left right with
  | some result =>
      refine (continued result found).congr fun another _ => ?_
      rw [Eval.difference_bind, found]
  | none =>
      have stopped : D.Keeps good machine start fun _ => (throw .stopped : Eval Answer) :=
        Keeps.throw laws.toOrder holds trivial (laws.stopped start)
      refine stopped.congr fun another _ => ?_
      rw [Eval.difference_bind, found]
      rfl

/-- What may take forever leaves the image alone. -/
theorem Laws.ofOption (holds : D.Holds start) {Found : Type} (found : Option Found)
    {next : Found → Machine → Eval Answer}
    (continued : ∀ answer, D.Keeps good machine start (next answer)) :
    D.Keeps good machine start fun machine =>
      Eval.ofOption found >>= fun answer => next answer machine := by
  cases found with
  | some answer =>
      exact (continued answer).congr fun another _ => rfl
  | none =>
      have exhausted : D.Keeps good machine start fun _ => (throw .exhausted : Eval Answer) :=
        Keeps.throw laws.toOrder holds trivial (laws.exhausted start)
      exact exhausted.congr fun another _ => rfl

theorem Laws.makeArray (holds : D.Holds start) {values : Array Value}
    (known : ∀ value ∈ values, D.Good start value) :
    D.Evaluates machine start fun _ => Eval.makeArray values :=
  laws.perform holds (.makeArray values) known rfl (laws.array start values)

end Laws

section Machines

variable (laws : D.Laws) (holds : D.Holds start)
include laws holds

theorem notUnderstood_keeps {receiver : Value} (selector : Selector) {operands : List Value}
    (known : D.Good start receiver) (allKnown : D.AllGood start operands) :
    D.Evaluates machine start fun machine =>
      machine.notUnderstood receiver selector operands := by
  refine Keeps.bind laws.toOrder (laws.meet holds _) fun met _ holdsMet already _ => ?_
  refine Keeps.get ?_
  cases found : met.lookupFor receiver Machine.misunderstanding with
  | none => exact laws.fail holdsMet fun _ => Failure.noConfusion
  | some method =>
      refine Keeps.bind laws.toOrder (laws.note holdsMet _) fun noted _ holdsNoted later _ => ?_
      refine Keeps.bind laws.toOrder
        (laws.makeArray holdsNoted fun value member =>
          laws.keep (laws.trans already later) (allKnown value (List.mem_toArray.mp member)))
        fun made array holdsMade further arrayKnown => ?_
      refine Keeps.activate laws.toOrder holdsMade ?_
      exact laws.found holdsMet (laws.keep already known) found (laws.trans later further)
        holdsMade (.cons (laws.plain made trivial trivial) (.cons arrayKnown (.nil made)))

theorem notUnderstoodBy_keeps (selector : Selector) {arguments : List Value}
    (accompanied : arguments = [] → ∀ after fault,
      D.Fine after (.failed { failure := .internal fault, backtrace := #[] }))
    (allKnown : D.AllGood start arguments) :
    D.Evaluates machine start fun machine => machine.notUnderstoodBy selector arguments := by
  cases arguments with
  | nil => exact Keeps.throw laws.toOrder holds rfl (accompanied rfl start .sendWithoutReceiver)
  | cons receiver operands =>
      exact notUnderstood_keeps laws holds selector allKnown.head allKnown.tail

theorem dispatch_keeps {found : Option MethodRef} (selector : Selector) {receiver : Value}
    {operands : List Value} (allKnown : D.AllGood start (receiver :: operands))
    (runs : ∀ method, found = some method →
      D.Runs start (.method method (receiver :: operands))) :
    D.Evaluates machine start fun machine =>
      machine.dispatch found selector (receiver :: operands) := by
  cases found with
  | none => exact notUnderstood_keeps laws holds selector allKnown.head allKnown.tail
  | some method => exact Keeps.activate laws.toOrder holds (runs method rfl)

theorem send_keeps (selector : Selector) {receiver : Value} {operands : List Value}
    (allKnown : D.AllGood start (receiver :: operands)) :
    D.Evaluates machine start fun machine => machine.send selector (receiver :: operands) := by
  refine Keeps.get ?_
  refine dispatch_keeps laws holds selector allKnown fun method found => ?_
  exact laws.found holds allKnown.head found (laws.refl start) holds allKnown.tail

theorem reportGlobal_keeps {receiver : Value} (name : String) (known : D.Good start receiver) :
    D.Evaluates machine start fun machine => machine.reportGlobal receiver name := by
  refine Keeps.bind laws.toOrder (laws.meet holds _) fun met _ holdsMet later _ => ?_
  refine Keeps.get ?_
  cases found : met.lookupFor receiver Machine.unknownGlobal with
  | none => exact laws.fail holdsMet fun _ => Failure.noConfusion
  | some method =>
      refine Keeps.activate laws.toOrder holdsMet ?_
      exact laws.found holdsMet (laws.keep later known) found (laws.refl met) holdsMet
        (.cons (laws.plain met trivial trivial) (.nil met))

theorem sendAt_keeps {frame : FrameRef} {code : Code} {site : CallSiteRef} {selector : Selector}
    {receiver : Value} {operands : List Value} (fits : D.Fits start frame code)
    (sending : code.sending? = some (site, selector)) (known : D.Good start receiver)
    (allKnown : D.AllGood start operands)
    (given : ∃ operands earlier, D.Given frame code (receiver :: operands) earlier) :
    D.Evaluates machine start fun machine =>
      machine.sendAt site selector receiver operands := by
  obtain ⟨⟨holdsThere, later⟩, runs⟩ := laws.resolve holds fits sending known given
  have resolved : D.Keeps (fun image found => ∀ method, found = some method →
      D.Runs image (.method method (receiver :: operands))) machine start
      fun _ => modifyGet fun image => image.lookupAt site selector receiver :=
    Keeps.modifyGet holdsThere later fun method found =>
      runs method found operands (laws.keepAll later allKnown)
  refine Keeps.bind laws.toOrder resolved fun after found holdsAfter laterAfter counted => ?_
  exact dispatch_keeps laws holdsAfter selector
    (.cons (laws.keep laterAfter known) (laws.keepAll laterAfter allKnown)) counted

theorem sendSuperAt_keeps {earlier : Image} {frame : FrameRef} {site : CallSiteRef}
    {origin : ClassRef} {selector : Selector} {codes : List Code} {operands : List Value}
    (holdsEarlier : D.Holds earlier)
    (fits : D.Fits earlier frame (.superSend site origin selector codes))
    (later : D.Later earlier start) (allKnown : D.AllGood start operands)
    (given : ∃ operands, D.Given frame (.superSend site origin selector codes) operands start) :
    D.Evaluates machine start fun machine =>
      machine.sendSuperAt site origin selector (earlier.frameAt frame).receiver operands := by
  have known : D.Good start (earlier.frameAt frame).receiver :=
    laws.keep later (laws.receiver holdsEarlier frame)
  obtain ⟨⟨holdsThere, further⟩, runs⟩ := laws.resolveSuper holdsEarlier fits later holds given
  have resolved : D.Keeps (fun image found => ∀ method, found = some method →
      D.Runs image (.method method ((earlier.frameAt frame).receiver :: operands))) machine start
      fun _ => modifyGet fun image => image.lookupSuperAt site origin selector :=
    Keeps.modifyGet holdsThere further fun method found =>
      runs method found operands (laws.keepAll further allKnown)
  refine Keeps.bind laws.toOrder resolved fun after found holdsAfter laterAfter counted => ?_
  exact dispatch_keeps laws holdsAfter selector
    (.cons (laws.keep laterAfter known) (laws.keepAll laterAfter allKnown)) counted

/-- Calling a block that was found to have no parameters. -/
theorem call_keeps {earlier : Image} {ref : BlockRef} (holdsEarlier : D.Holds earlier)
    (known : D.Good earlier (.block ref)) (plain : (earlier.blockAt ref).parameters = 0)
    (later : D.Later earlier start) :
    D.Evaluates machine start fun machine => machine.activate (.block ref []) :=
  Keeps.activate laws.toOrder holds (laws.called holdsEarlier known plain later holds)

theorem loop_keeps {earlier : Image} {condition body : BlockRef} (expected : Bool) (rounds : Nat)
    (holdsEarlier : D.Holds earlier) (conditionKnown : D.Good earlier (.block condition))
    (bodyKnown : D.Good earlier (.block body))
    (conditionPlain : (earlier.blockAt condition).parameters = 0)
    (bodyPlain : (earlier.blockAt body).parameters = 0) (later : D.Later earlier start) :
    D.Evaluates machine start fun machine => machine.loop condition body expected rounds := by
  induction rounds generalizing start with
  | zero => exact Keeps.throw laws.toOrder holds trivial (laws.exhausted start)
  | succ rounds inductionHypothesis =>
      refine Keeps.bind laws.toOrder
        (call_keeps laws holds holdsEarlier conditionKnown conditionPlain later)
        fun tested value holdsTested laterTested _ => ?_
      have quiet : D.Evaluates machine tested fun _ => pure .nil :=
        Keeps.pure laws.toOrder holdsTested (laws.plain tested trivial trivial)
      cases value with
      | boolean truth =>
          dsimp only
          split
          · have laterSoFar := laws.trans later laterTested
            refine Keeps.bind laws.toOrder
              (call_keeps laws holdsTested holdsEarlier bodyKnown bodyPlain laterSoFar)
              fun ran _ holdsRan laterRan _ => ?_
            exact inductionHypothesis holdsRan (laws.trans laterSoFar laterRan)
          · exact quiet
      | _ => exact quiet

end Machines

end Discipline

end MessageMachine
