import MessageMachine.Proofs.Correspondence.Operations
import MessageMachine.Proofs.Discipline.Evaluation

/-!
# Operations under a discipline

The primitive operations keep to a discipline.  Most of them reply with plain data or look something
up in the image.  The others send messages, branch and loop, or call what they are given; for the
last of these, what they call has to be counted on beforehand.
-/

namespace MessageMachine

namespace Discipline

variable {D : Discipline} {machine : Machine} {start : Image}

section Plain

variable (laws : D.Laws) (holds : D.Holds start)
include laws holds

theorem reject_keeps (primitive : Primitive) :
    D.Evaluates machine start fun _ => primitive.mismatch :=
  laws.fail holds fun _ => Failure.noConfusion

theorem refuse_keeps (primitive : Primitive) (refusal : Refusal) :
    D.Evaluates machine start fun _ => primitive.refuse refusal :=
  laws.fail holds fun _ => Failure.noConfusion

theorem plain_keeps {value : Value} (plain : value.IsPlain) (normal : value.IsNormal) :
    D.Evaluates machine start fun _ => pure value :=
  Keeps.pure laws.toOrder holds (laws.plain start plain normal)

theorem integer_keeps (number : Int) :
    D.Evaluates machine start fun _ => pure (.ofInt number) :=
  plain_keeps laws holds (Value.isPlain_ofInt number) (Value.isNormal_ofInt number)

theorem conclude_keeps (primitive : Primitive) {reply : Reply} (plain : reply.Plain) :
    D.Evaluates machine start fun _ => primitive.conclude reply := by
  cases plain with
  | answer plain normal => exact plain_keeps laws holds plain normal
  | refuse refusal => exact refuse_keeps laws holds primitive refusal
  | mismatch => exact reject_keeps laws holds primitive

theorem classOperation_keeps (operation : ClassOperation) {arguments : List Value}
    (allKnown : D.AllGood start arguments) :
    D.Evaluates machine start fun _ => operation.run arguments := by
  unfold ClassOperation.run
  split
  · next ref _ =>
      exact laws.perform holds (.instantiate ref) allKnown.head rfl (laws.object start ref)
  · refine Keeps.get (Keeps.bind laws.toOrder (laws.meet holds _) fun met _ holdsMet _ _ => ?_)
    exact plain_keeps laws holdsMet trivial trivial
  · refine Keeps.get (Keeps.bind laws.toOrder (laws.meetAll holds _) fun met _ holdsMet _ _ => ?_)
    refine laws.makeArray holdsMet fun value member => ?_
    obtain ⟨name, -, rfl⟩ := List.mem_map.mp (List.mem_toArray.mp member)
    exact laws.plain met trivial trivial
  · refine Keeps.get (laws.makeArray holds fun value member => ?_)
    obtain ⟨method, held, rfl⟩ := List.mem_map.mp (List.mem_toArray.mp member)
    exact laws.entry holds held
  · next ref _ =>
      refine Keeps.get ?_
      cases found : (start.classAt ref).superclass with
      | none => exact plain_keeps laws holds trivial trivial
      | some parent => exact Keeps.pure laws.toOrder holds (laws.superclass holds found)
  · exact reject_keeps laws holds _

/-- Looking for the place of a position leaves the image alone. -/
theorem offset_keeps {good : Image → Value → Prop} (index : Int64) (length : Nat)
    {next : Option Nat → Machine → Eval Value}
    (continued : ∀ place, D.Keeps good machine start (next place)) :
    D.Keeps good machine start fun machine =>
      Eval.offset? index length >>= fun place => next place machine := by
  simp only [Eval.offset?, bind_assoc, pure_bind]
  exact laws.difference holds index 1 fun position _ => continued _

/-- The text of a value is computed without changing the image, or forever. -/
theorem text_keeps (value : Value) {next : String → Machine → Eval Value}
    (continued : ∀ text, D.Evaluates machine start (next text)) :
    D.Evaluates machine start fun machine =>
      (do next (← Eval.ofOption ((← get).text? value)) machine) :=
  Keeps.get (laws.ofOption holds _ continued)

theorem refuseField_keeps (primitive : Primitive) (receiver : Value) (index : Int64) :
    D.Evaluates machine start fun _ => primitive.refuseField receiver index :=
  text_keeps laws holds receiver fun _ => refuse_keeps laws holds primitive _

theorem arrayOperation_keeps (operation : ArrayOperation) {arguments : List Value}
    (allKnown : D.AllGood start arguments)
    (puts : ∀ ref value, (Primitive.array operation).Puts arguments ref value →
      ∀ place, D.Steps start ((Action.setElement ref place value).perform start)) :
    D.Evaluates machine start fun _ => operation.run arguments := by
  unfold ArrayOperation.run
  dsimp only
  split
  · next ref index _ =>
      refine Keeps.get (offset_keeps laws holds index _ fun found => ?_)
      cases found with
      | none => exact refuse_keeps laws holds _ _
      | some place =>
          refine Keeps.pure laws.toOrder holds ?_
          cases element : (start.arrayAt ref)[place]? with
          | none => exact laws.plain start trivial trivial
          | some value => exact laws.element holds (Array.mem_of_getElem? element)
  · next ref index value _ =>
      refine Keeps.get (offset_keeps laws holds index _ fun found => ?_)
      cases found with
      | none => exact refuse_keeps laws holds _ _
      | some place =>
          have stepped := puts ref value .intro place
          have written : D.Keeps (fun _ _ => True) machine start fun _ =>
              modify fun image => image.setElement ref place value :=
            Keeps.modifyGet stepped.1 stepped.2 trivial
          refine Keeps.bind laws.toOrder written fun after _ holdsAfter later _ => ?_
          exact Keeps.pure laws.toOrder holdsAfter (laws.keep later allKnown.head)
  · exact Keeps.get (integer_keeps laws holds _)
  · exact reject_keeps laws holds _

theorem factoryOperation_keeps (operation : FactoryOperation) (arguments : List Value) :
    D.Evaluates machine start fun _ => operation.run arguments := by
  unfold FactoryOperation.run
  dsimp only
  split
  · split
    · exact reject_keeps laws holds _
    · split
      · exact integer_keeps laws holds _
      · exact refuse_keeps laws holds _ _
  · split
    · exact plain_keeps laws holds trivial trivial
    · exact refuse_keeps laws holds _ _
  · exact plain_keeps laws holds trivial trivial
  · split
    · exact refuse_keeps laws holds _ _
    · refine laws.makeArray holds fun value member => ?_
      rw [(Array.mem_replicate.mp member).2]
      exact laws.plain start trivial trivial
  · exact reject_keeps laws holds _

theorem integerOperation_keeps (operation : IntegerOperation) (arguments : List Value) :
    D.Evaluates machine start fun _ => operation.run arguments := by
  unfold IntegerOperation.run
  split
  · unfold IntegerOperation.random
    split
    · next bound _ =>
      split
      · have drawn : D.Keeps (fun _ _ => True) machine start fun _ =>
            modifyGet fun image => image.draw bound :=
          laws.perform holds (.draw bound) trivial rfl trivial
        refine Keeps.bind laws.toOrder drawn fun after _ holdsAfter _ _ => ?_
        exact plain_keeps laws holdsAfter trivial trivial
      · exact refuse_keeps laws holds _ _
    · exact refuse_keeps laws holds _ _
    · exact reject_keeps laws holds _
  · exact conclude_keeps laws holds _ (operation.plain_reply arguments)

theorem stringOperation_keeps (operation : StringOperation) (arguments : List Value) :
    D.Evaluates machine start fun _ => operation.run arguments := by
  unfold StringOperation.run
  dsimp only
  split
  · refine Keeps.bind laws.toOrder (laws.meet holds _) fun met _ holdsMet _ _ => ?_
    exact plain_keeps laws holdsMet trivial trivial
  · exact plain_keeps laws holds trivial trivial
  · exact laws.difference holds _ 1 fun position _ =>
      conclude_keeps laws holds _ (StringOperation.plain_excerpt _ _ _)
  · exact conclude_keeps laws holds _ (StringOperation.plain_reply _ _)

end Plain

section Calling

variable (laws : D.Laws) (holds : D.Holds start)
include laws holds

theorem branch_keeps {value : Value} (known : D.Good start value) :
    D.Evaluates machine start fun machine => machine.branch value := by
  unfold Machine.branch
  split
  · next ref =>
      refine Keeps.get ?_
      split
      · next plain => exact call_keeps laws holds holds known plain (laws.refl start)
      · exact Keeps.pure laws.toOrder holds known
  · exact Keeps.pure laws.toOrder holds known

theorem booleanOperation_keeps (operation : BooleanOperation) {arguments : List Value}
    (allKnown : D.AllGood start arguments) :
    D.Evaluates machine start fun machine => operation.run machine arguments := by
  unfold BooleanOperation.run
  split
  · split
    · exact branch_keeps laws holds allKnown.tail.head
    · exact plain_keeps laws holds trivial trivial
  · split
    · exact plain_keeps laws holds trivial trivial
    · exact branch_keeps laws holds allKnown.tail.head
  · refine branch_keeps laws holds ?_
    split
    · exact allKnown.tail.head
    · exact allKnown.tail.tail.head
  · refine branch_keeps laws holds ?_
    split
    · exact allKnown.tail.tail.head
    · exact allKnown.tail.head
  · exact plain_keeps laws holds trivial trivial
  · split
    · exact branch_keeps laws holds allKnown.tail.head
    · exact plain_keeps laws holds trivial trivial
  · split
    · exact plain_keeps laws holds trivial trivial
    · exact branch_keeps laws holds allKnown.tail.head
  · exact reject_keeps laws holds _

theorem runLoop_keeps (operation : BlockOperation) (expected : Bool) {condition body : BlockRef}
    (conditionKnown : D.Good start (.block condition)) (bodyKnown : D.Good start (.block body)) :
    D.Evaluates machine start fun machine =>
      BlockOperation.runLoop machine operation expected condition body := by
  refine Keeps.get ?_
  split
  · next plain => exact patientLoop_keeps laws holds expected conditionKnown bodyKnown plain
  · exact reject_keeps laws holds _

theorem blockOperation_keeps (operation : BlockOperation) {arguments : List Value}
    (allKnown : D.AllGood start arguments)
    (calls : ∀ activation, (Primitive.block operation).Calls start arguments activation →
      D.Runs start activation) :
    D.Evaluates machine start fun machine => operation.run machine arguments := by
  unfold BlockOperation.run
  split
  · exact Keeps.get (integer_keeps laws holds _)
  · exact runLoop_keeps laws holds _ true allKnown.head allKnown.tail.head
  · exact runLoop_keeps laws holds _ false allKnown.head allKnown.tail.head
  · exact Keeps.activate laws.toOrder holds (calls _ .value)
  · exact Keeps.activate laws.toOrder holds (calls _ .valueWith)
  · exact Keeps.activate laws.toOrder holds (calls _ .valueWithWith)
  · exact reject_keeps laws holds _

theorem methodOperation_keeps (operation : MethodOperation) {arguments : List Value}
    (allKnown : D.AllGood start arguments)
    (calls : ∀ activation, (Primitive.method operation).Calls start arguments activation →
      D.Runs start activation) :
    D.Evaluates machine start fun machine => operation.run machine arguments := by
  unfold MethodOperation.run
  split
  · exact Keeps.get (Keeps.pure laws.toOrder holds (laws.holder holds allKnown.head))
  · exact Keeps.get (plain_keeps laws holds trivial trivial)
  · exact Keeps.get (Keeps.activate laws.toOrder holds (calls _ .invoked))
  · exact reject_keeps laws holds _

theorem fieldAt_keeps (receiver : Value) (position : Int64) (known : D.Good start receiver) :
    D.Keeps (fun image found => ∀ value, found = some value → D.Good image value) machine start
      fun _ => modifyGet fun image =>
        match place? position with
        | some place => image.readField receiver place
        | none => (none, image) := by
  cases place? position with
  | none => exact Keeps.modifyGet holds (laws.refl start) fun value found => by cases found
  | some place =>
      have may : D.May start (.readField receiver place) := known
      have stepped := laws.act holds may
      exact Keeps.modifyGet stepped.1 stepped.2 fun value found =>
        laws.keep stepped.2 (laws.field holds found)

theorem fieldAtPut_keeps (receiver value : Value) (position : Int64)
    (assigns : ∀ place, place? position = some place →
      D.Steps start ((Action.writeField receiver place value).perform start)) :
    D.Keeps (fun _ _ => True) machine start
      fun _ => modifyGet fun image =>
        match place? position with
        | some place => image.writeField receiver place value
        | none => (false, image) := by
  cases found : place? position with
  | none => exact Keeps.modifyGet holds (laws.refl start) trivial
  | some place =>
      have stepped := assigns place found
      exact Keeps.modifyGet stepped.1 stepped.2 trivial

theorem objectOperation_keeps (operation : ObjectOperation) {arguments : List Value}
    (allKnown : D.AllGood start arguments)
    (calls : ∀ activation, (Primitive.object operation).Calls start arguments activation →
      D.Runs start activation)
    (assigns : ∀ receiver place value,
      (Primitive.object operation).Assigns start arguments receiver place value →
      D.Steps start ((Action.writeField receiver place value).perform start)) :
    D.Evaluates machine start fun machine => operation.run machine arguments := by
  unfold ObjectOperation.run
  dsimp only
  split
  · exact Keeps.get (Keeps.pure laws.toOrder holds (laws.classOf holds allKnown.head))
  · exact Keeps.get (laws.ofOption holds _ fun _ => plain_keeps laws holds trivial trivial)
  · exact send_keeps laws holds _ (.cons allKnown.head (.nil start))
  · exact send_keeps laws holds _
      (.cons allKnown.head (.cons allKnown.tail.tail.head (.nil start)))
  · refine Keeps.get (send_keeps laws holds _ (.cons allKnown.head fun value member => ?_))
    exact laws.element holds (Array.mem_toList_iff.mp member)
  · next receiver selector origin _ =>
      refine Keeps.get ?_
      cases found : start.lookup origin selector with
      | none => exact notUnderstood_keeps laws holds selector allKnown.head (.nil start)
      | some method => exact Keeps.activate laws.toOrder holds (calls _ (.inSuperclass found))
  · next receiver index _ =>
      refine laws.difference holds index 1 fun position _ => ?_
      refine Keeps.bind laws.toOrder (fieldAt_keeps laws holds receiver position allKnown.head)
        fun after found holdsAfter _ known => ?_
      cases found with
      | some value => exact Keeps.pure laws.toOrder holdsAfter (known value rfl)
      | none => exact refuseField_keeps laws holdsAfter _ receiver index
  · next receiver index value _ =>
      refine laws.difference holds index 1 fun position subtracted => ?_
      refine Keeps.bind laws.toOrder
        (fieldAtPut_keeps laws holds receiver value position fun place found =>
          assigns receiver place value (.intro subtracted found))
        fun after written holdsAfter later _ => ?_
      cases written with
      | true => exact Keeps.pure laws.toOrder holdsAfter (laws.keep later allKnown.tail.tail.head)
      | false => exact refuseField_keeps laws holdsAfter _ receiver index
  · refine text_keeps laws holds _ fun text => ?_
    exact laws.fail holds fun _ => Failure.noConfusion
  · exact plain_keeps laws holds trivial trivial
  · exact reject_keeps laws holds _

/-- Every primitive operation keeps to a discipline. -/
theorem primitive_keeps (primitive : Primitive) {arguments : List Value}
    (allKnown : D.AllGood start arguments)
    (calls : ∀ activation, primitive.Calls start arguments activation → D.Runs start activation)
    (puts : ∀ ref value, primitive.Puts arguments ref value →
      ∀ place, D.Steps start ((Action.setElement ref place value).perform start))
    (assigns : ∀ receiver place value, primitive.Assigns start arguments receiver place value →
      D.Steps start ((Action.writeField receiver place value).perform start)) :
    D.Evaluates machine start fun machine => primitive.run machine arguments := by
  cases primitive with
  | object operation => exact objectOperation_keeps laws holds operation allKnown calls assigns
  | classObject operation => exact classOperation_keeps laws holds operation allKnown
  | boolean operation => exact booleanOperation_keeps laws holds operation allKnown
  | integer operation => exact integerOperation_keeps laws holds operation arguments
  | double operation => exact conclude_keeps laws holds _ (operation.plain_reply arguments)
  | array operation => exact arrayOperation_keeps laws holds operation allKnown puts
  | string operation => exact stringOperation_keeps laws holds operation arguments
  | symbolAsString => exact conclude_keeps laws holds _ (plain_symbolTextReply arguments)
  | block operation => exact blockOperation_keeps laws holds operation allKnown calls
  | method operation => exact methodOperation_keeps laws holds operation allKnown calls
  | factory operation => exact factoryOperation_keeps laws holds operation arguments

end Calling

end Discipline

end MessageMachine
