import MessageMachine.Proofs.Correspondence.Agreement

/-!
# Sending messages side by side

Machines are partners if the activations that they run agree.  Everything that an evaluation does
by way of a machine then agrees as well: sends with and without a site, reports of messages that are
not understood, and loops.
-/

namespace MessageMachine

namespace Correspondence

variable {C : Correspondence} {stage after : C.Stage}

/-- Machines whose activations agree. -/
structure Partners (C : Correspondence) (machine other : Machine) : Prop where
  activate : ∀ {stage activation}, activation.Known (C.first stage) →
    C.Evaluates stage (machine.activate activation) (other.activate activation)
  patience : other.patience = machine.patience ∨
    C.lenient ∧ machine.patience ≤ other.patience

namespace Partners

variable {machine other : Machine} (partners : C.Partners machine other)
include partners

theorem method (ref : MethodRef) {arguments : List Value}
    (allKnown : Value.AllExist (C.first stage) arguments) :
    C.Evaluates stage (machine.activate (.method ref arguments))
      (other.activate (.method ref arguments)) :=
  partners.activate allKnown

theorem block {ref : BlockRef} {arguments : List Value}
    (known : (C.first stage).heap.blocks.Has ref)
    (allKnown : Value.AllExist (C.first stage) arguments) :
    C.Evaluates stage (machine.activate (.block ref arguments))
      (other.activate (.block ref arguments)) :=
  partners.activate ⟨known, allKnown⟩

end Partners

namespace Laws

variable (laws : C.Laws)
include laws

theorem mono {value : Value} (later : C.Later stage after) (known : value.Exists (C.first stage)) :
    value.Exists (C.first after) :=
  known.mono (laws.extended later)

theorem monoAll {values : List Value} (later : C.Later stage after)
    (known : Value.AllExist (C.first stage) values) : Value.AllExist (C.first after) values :=
  known.mono (laws.extended later)

theorem fail {Answer : Type} {good : Image → Answer → Prop} {failure : Failure}
    (settled : ∀ operation, failure ≠ .typeMismatch operation) :
    C.Matches good Escape.Settled stage (Eval.fail failure) (Eval.fail failure) :=
  .throw laws settled

/-- A common action of both machines that answers the same. -/
theorem perform {Answer : Type} {good : Image → Answer → Prop} {fine : Image → Escape → Prop}
    (action : Action) (common : action.Common) (allowed : action.Allowed (C.first stage))
    {change changeToo : Image → Answer × Image}
    (first : (change (C.first stage)).2 = action.perform (C.first stage))
    (second : (changeToo (C.second stage)).2 = action.perform (C.second stage))
    (same : (changeToo (C.second stage)).1 = (change (C.first stage)).1)
    (known : ∀ after, C.Later stage after → C.first after = action.perform (C.first stage) →
      good (C.first after) (change (C.first stage)).1) :
    C.Matches good fine stage (modifyGet change) (modifyGet changeToo) := by
  obtain ⟨after, reached⟩ := laws.act stage common allowed
  have stepped : C.Reached stage (change (C.first stage)).2 (changeToo (C.second stage)).2
      after := by
    rw [first, second]
    exact reached
  exact Matches.modifyGet stepped same (known after reached.later reached.first)

theorem note {fine : Image → Escape → Prop} (describe : Image → Event) :
    C.Matches (fun _ _ => True) fine stage (Eval.note describe) (Eval.note describe) := by
  obtain ⟨after, reached⟩ := laws.noted stage describe
  exact Matches.modifyGet reached rfl trivial

theorem meetAll {fine : Image → Escape → Prop} (names : List String) :
    C.Matches (fun _ _ => True) fine stage (modify fun image => image.meetAll names)
      (modify fun image => image.meetAll names) :=
  laws.perform (.meet names) trivial trivial rfl rfl rfl fun _ _ _ => trivial

theorem meet {fine : Image → Escape → Prop} (name : String) :
    C.Matches (fun _ _ => True) fine stage (Eval.meet name) (Eval.meet name) :=
  laws.meetAll [name]

/-- On one platform words are subtracted alike. -/
theorem difference {fine : Image → Escape → Prop} (left right : Int64)
    (stops : fine (C.first stage) .stopped) :
    C.Matches (fun _ _ => True) fine stage (Eval.difference left right)
      (Eval.difference left right) := by
  refine Matches.get ?_
  rw [(laws.alike stage).platform]
  cases (C.first stage).platform.difference? left right with
  | some result => exact .pure laws trivial
  | none => exact .throw laws stops

theorem makeArray {fine : Image → Escape → Prop} {values : Array Value}
    (known : ∀ value ∈ values, value.Exists (C.first stage)) :
    C.Matches Value.Exists fine stage (Eval.makeArray values) (Eval.makeArray values) := by
  refine laws.perform (.makeArray values) trivial known rfl rfl ?_ ?_
  · rw [(laws.alike stage).arrays]
  · intro after _ reached
    rw [reached]
    exact (Arena.has_push _ _ _).mpr (Or.inr rfl)

end Laws

section Machines

variable {machine other : Machine} (laws : C.Laws) (partners : C.Partners machine other)
include laws partners

theorem notUnderstood_evaluates {receiver : Value} (selector : Selector) {operands : List Value}
    (known : receiver.Exists (C.first stage)) (allKnown : Value.AllExist (C.first stage) operands) :
    C.Evaluates stage (machine.notUnderstood receiver selector operands)
      (other.notUnderstood receiver selector operands) := by
  refine Matches.bind laws (laws.meet _) fun met already _ _ => ?_
  have alike := laws.alike met
  refine Matches.get ?_
  rw [alike.lookupFor]
  cases (C.first met).lookupFor receiver Machine.misunderstanding with
  | none =>
      dsimp only
      rw [alike.classOf, alike.className]
      exact laws.fail fun _ => Failure.noConfusion
  | some method =>
      refine Matches.bind laws (laws.note _) fun noted later _ _ => ?_
      refine Matches.bind laws (laws.makeArray fun value member =>
        laws.mono later (laws.mono already (allKnown value (List.mem_toArray.mp member))))
        fun made further array arrayKnown => ?_
      exact partners.method method
        (.cons (laws.mono further (laws.mono later (laws.mono already known)))
        (.cons trivial (.cons arrayKnown (.nil _))))

theorem notUnderstoodBy_evaluates (selector : Selector) {arguments : List Value}
    (allKnown : Value.AllExist (C.first stage) arguments) :
    C.Evaluates stage (machine.notUnderstoodBy selector arguments)
      (other.notUnderstoodBy selector arguments) := by
  cases arguments with
  | nil => exact laws.fail fun _ => Failure.noConfusion
  | cons receiver operands =>
      exact notUnderstood_evaluates laws partners selector allKnown.head allKnown.tail

theorem dispatch_evaluates (found : Option MethodRef) (selector : Selector)
    {arguments : List Value} (allKnown : Value.AllExist (C.first stage) arguments) :
    C.Evaluates stage (machine.dispatch found selector arguments)
      (other.dispatch found selector arguments) := by
  cases found with
  | none => exact notUnderstoodBy_evaluates laws partners selector allKnown
  | some method => exact partners.method method allKnown

theorem send_evaluates (selector : Selector) {arguments : List Value}
    (allKnown : Value.AllExist (C.first stage) arguments) :
    C.Evaluates stage (machine.send selector arguments) (other.send selector arguments) := by
  cases arguments with
  | nil => exact laws.fail fun _ => Failure.noConfusion
  | cons receiver operands =>
      refine Matches.get ?_
      dsimp only
      rw [(laws.alike stage).lookupFor]
      exact dispatch_evaluates laws partners _ selector allKnown

theorem reportGlobal_evaluates {receiver : Value} (name : String)
    (known : receiver.Exists (C.first stage)) :
    C.Evaluates stage (machine.reportGlobal receiver name) (other.reportGlobal receiver name) := by
  refine Matches.bind laws (laws.meet _) fun met already _ _ => ?_
  refine Matches.get ?_
  rw [(laws.alike met).lookupFor]
  cases (C.first met).lookupFor receiver Machine.unknownGlobal with
  | none => exact laws.fail fun _ => Failure.noConfusion
  | some method =>
      exact partners.method method (.cons (laws.mono already known) (.cons trivial (.nil _)))

theorem sendAt_evaluates {site : CallSiteRef} {selector : Selector} {receiver : Value}
    {operands : List Value} (sends : (C.first stage).Sends site selector)
    (known : receiver.Exists (C.first stage))
    (allKnown : Value.AllExist (C.first stage) operands) :
    C.Evaluates stage (machine.sendAt site selector receiver operands)
      (other.sendAt site selector receiver operands) := by
  have resolved : C.Matches (fun _ _ => True) Escape.Settled stage
      (modifyGet fun image => image.lookupAt site selector receiver)
      (modifyGet fun image => image.lookupAt site selector receiver) :=
    laws.perform (.resolve site selector receiver) trivial ⟨known, sends⟩ rfl rfl
      (laws.resolve stage site selector receiver known sends) fun _ _ _ => trivial
  refine Matches.bind laws resolved fun after later found _ => ?_
  exact dispatch_evaluates laws partners found selector
    (.cons (laws.mono later known) (laws.monoAll later allKnown))

theorem sendSuperAt_evaluates {site : CallSiteRef} {origin : ClassRef} {selector : Selector}
    {receiver : Value} {operands : List Value}
    (sends : (C.first stage).SendsSuper site origin selector)
    (known : receiver.Exists (C.first stage))
    (allKnown : Value.AllExist (C.first stage) operands) :
    C.Evaluates stage (machine.sendSuperAt site origin selector receiver operands)
      (other.sendSuperAt site origin selector receiver operands) := by
  have resolved : C.Matches (fun _ _ => True) Escape.Settled stage
      (modifyGet fun image => image.lookupSuperAt site origin selector)
      (modifyGet fun image => image.lookupSuperAt site origin selector) :=
    laws.perform (.resolveSuper site origin selector) trivial sends rfl rfl
      (laws.resolveSuper stage site origin selector sends) fun _ _ _ => trivial
  refine Matches.bind laws resolved fun after later found _ => ?_
  exact dispatch_evaluates laws partners found selector
    (.cons (laws.mono later known) (laws.monoAll later allKnown))

end Machines

end Correspondence

end MessageMachine
