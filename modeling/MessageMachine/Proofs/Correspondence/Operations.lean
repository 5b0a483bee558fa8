import MessageMachine.Proofs.Correspondence.Evaluation
import MessageMachine.Proofs.Lookup

/-!
# Operations side by side

The primitive operations agree on stages of a correspondence.  An operation on plain data computes
its reply from the arguments alone, so that there is nothing to show for it but that the reply is
plain data again.  The other operations look at the image, send messages or run blocks.
-/

namespace MessageMachine

/-- Replies that refer to nothing.  What is answered is in normal form. -/
inductive Reply.Plain : Reply → Prop
  | answer {value : Value} : value.IsPlain → value.IsNormal → Plain (.answer value)
  | refuse (refusal : Refusal) : Plain (.refuse refusal)
  | mismatch : Plain .mismatch

theorem Value.isPlain_ofInt (number : Int) : (Value.ofInt number).IsPlain := by
  unfold Value.ofInt
  split <;> trivial

namespace Reply

theorem plain_truth (value : Bool) : (Reply.truth value).Plain :=
  .answer trivial trivial

theorem plain_integer (number : Int) : (Reply.integer number).Plain :=
  .answer (Value.isPlain_ofInt number) (Value.isNormal_ofInt number)

theorem plain_double (number : Double) : (Reply.double number).Plain :=
  .answer trivial trivial

theorem plain_ofOption {found : Option Value}
    (plain : ∀ value, found = some value → (Reply.answer value).Plain) :
    (Reply.ofOption found).Plain := by
  cases found with
  | none => exact .mismatch
  | some value => exact plain value rfl

end Reply

namespace IntegerOperation

theorem plain_convert? {onWords : Int64 → Option Int64} {exact : Int → Int} {value result : Value}
    (found : convert? onWords exact value = some result) : (Reply.answer result).Plain := by
  unfold convert? at found
  split at found
  · split at found
    · cases found
      exact .answer trivial trivial
    · cases found
      exact Reply.plain_integer _
  · cases found
    exact Reply.plain_integer _
  · cases found

theorem plain_combine? {onWords : Int64 → Int64 → Option Int64} {exact : Int → Int → Int}
    {left right result : Value} (found : combine? onWords exact left right = some result) :
    (Reply.answer result).Plain := by
  unfold combine? at found
  split at found
  · split at found
    · cases found
      exact .answer trivial trivial
    · cases found
      exact Reply.plain_integer _
  · split at found
    · cases found
      exact Reply.plain_integer _
    · cases found

theorem plain_arithmetic (onWords : Int64 → Int64 → Option Int64) (exact : Int → Int → Int)
    (inexact : Double → Double → Double) (left right : Value) :
    (arithmetic onWords exact inexact left right).Plain := by
  unfold arithmetic
  split
  · next found => exact plain_combine? found
  · exact Reply.plain_double _
  · exact .mismatch

theorem plain_sum (left right : Value) : (sum left right).Plain := by
  unfold sum
  split
  · next found => exact plain_combine? found
  · exact Reply.plain_double _
  · exact Reply.plain_double _
  · exact .mismatch

theorem plain_floorQuotient (left right : Value) : (floorQuotient left right).Plain := by
  unfold floorQuotient
  split
  · exact .refuse _
  · exact plain_arithmetic _ _ _ left right

theorem plain_bitwise (onWords : Int64 → Int64 → Int64) (exact : Int → Int → Int)
    (left right : Value) : (bitwise onWords exact left right).Plain :=
  Reply.plain_ofOption fun _ found => plain_combine? found

theorem plain_divided (onWords : Int64 → Int64 → Int64) (exact : Int → Int → Int)
    (left right : Value) : (divided onWords exact left right).Plain := by
  unfold divided
  split
  · exact .refuse _
  · exact Reply.plain_ofOption fun _ found => plain_combine? found

theorem plain_shifted (onWords : Int64 → Nat → Option Int64) (exact : Int → Nat → Int)
    (number amount : Value) : (shifted onWords exact number amount).Plain := by
  unfold shifted
  split
  · split
    · exact .refuse _
    · exact Reply.plain_ofOption fun _ found => plain_convert? found
  · exact .mismatch

theorem plain_comparison (expected : Ordering → Bool) (left right : Value) :
    (comparison expected left right).Plain := by
  unfold comparison
  split
  · split
    · exact Reply.plain_truth _
    · exact .mismatch
  · exact .mismatch

theorem plain_ratio (left right : Value) :
    (match left.number?, right.number? with
      | some left, some right => Reply.double (left.toDouble / right.toDouble)
      | _, _ => .mismatch).Plain := by
  split
  · exact Reply.plain_double _
  · exact .mismatch

theorem plain_squareRoot (value : Value) : (squareRoot value).Plain := by
  unfold squareRoot
  split
  · split
    · exact .refuse _
    · dsimp only
      split
      · exact Reply.plain_integer _
      · exact Reply.plain_double _
  · split
    · exact Reply.plain_integer _
    · exact .refuse _
  · exact .mismatch

theorem plain_onIntegral {operation : Int → Reply} (plain : ∀ number, (operation number).Plain)
    (value : Value) : (onIntegral operation value).Plain := by
  unfold onIntegral
  split
  · exact plain _
  · exact .mismatch

theorem plain_unary {operation : IntegerOperation} {unary : Value → Reply}
    (found : operation.unary = some unary) (value : Value) : (unary value).Plain := by
  cases operation <;> cases found
  · exact Reply.plain_ofOption fun _ found => plain_convert? found
  · exact plain_squareRoot value
  · exact plain_onIntegral (fun _ => .answer (by trivial) (by trivial)) value
  · exact plain_onIntegral (fun _ => Reply.plain_double _) value

theorem plain_binary {operation : IntegerOperation} {binary : Value → Value → Reply}
    (found : operation.binary = some binary) (left right : Value) : (binary left right).Plain := by
  cases operation <;> cases found <;>
    first
    | exact plain_comparison _ left right
    | exact Reply.plain_truth _
    | exact plain_sum left right
    | exact plain_arithmetic _ _ _ left right
    | exact plain_floorQuotient left right
    | exact plain_ratio left right
    | exact plain_divided _ _ left right
    | exact plain_bitwise _ _ left right
    | exact plain_shifted _ _ left right

/-- Operations of integers reply with plain data. -/
theorem plain_reply (operation : IntegerOperation) (arguments : List Value) :
    (operation.reply arguments).Plain := by
  unfold reply
  split
  · next found => exact plain_unary found _
  · next found => exact plain_binary found _ _
  · exact .mismatch

end IntegerOperation

namespace DoubleOperation

theorem plain_arithmetic (operation : Double → Double → Double) (left right : Value) :
    (arithmetic operation left right).Plain := by
  unfold arithmetic
  split
  · exact Reply.plain_double _
  · exact .mismatch

theorem plain_comparison (expected : Ordering → Bool) (left right : Value) :
    (comparison expected left right).Plain := by
  unfold comparison
  split
  · exact .mismatch
  · split
    · exact Reply.plain_truth _
    · exact Reply.plain_truth _

theorem plain_onDouble {operation : Double → Reply} (plain : ∀ number, (operation number).Plain)
    (value : Value) : (onDouble operation value).Plain := by
  unfold onDouble
  split
  · exact plain _
  · exact .mismatch

theorem plain_integerOr (refusal : Refusal) (number : Option Int) :
    (integerOr refusal number).Plain := by
  cases number with
  | none => exact .refuse refusal
  | some number => exact Reply.plain_integer number

theorem plain_unary {operation : DoubleOperation} {unary : Value → Reply}
    (found : operation.unary = some unary) (value : Value) : (unary value).Plain := by
  cases operation <;> cases found
  · exact plain_onDouble (fun _ => Reply.plain_double _) value
  · exact plain_onDouble (fun _ => plain_integerOr _ _) value
  · exact plain_onDouble (fun _ => .answer (by trivial) (by trivial)) value
  · exact plain_onDouble (fun _ => plain_integerOr _ _) value

theorem plain_binary {operation : DoubleOperation} {binary : Value → Value → Reply}
    (found : operation.binary = some binary) (left right : Value) : (binary left right).Plain := by
  cases operation <;> cases found <;>
    first
    | exact plain_comparison _ left right
    | exact plain_arithmetic _ left right
    | exact Reply.plain_truth _

/-- Operations of doubles reply with plain data. -/
theorem plain_reply (operation : DoubleOperation) (arguments : List Value) :
    (operation.reply arguments).Plain := by
  unfold reply
  split
  · next found => exact plain_unary found _
  · next found => exact plain_binary found _ _
  · exact .mismatch

end DoubleOperation

namespace StringOperation

theorem plain_onText {operation : String → Value}
    (plain : ∀ text, (Reply.answer (operation text)).Plain) (value : Value) :
    (onText operation value).Plain := by
  unfold onText
  split
  · exact plain _
  · exact .mismatch

theorem plain_excerpt (value : Value) (first last : Int64) : (excerpt value first last).Plain := by
  unfold excerpt
  split
  · exact plain_onText (fun _ => .answer (by trivial) (by trivial)) _
  · exact .mismatch

/-- Operations of strings reply with plain data. -/
theorem plain_reply (operation : StringOperation) (arguments : List Value) :
    (operation.reply arguments).Plain := by
  unfold reply
  split
  · exact plain_onText (fun _ => Reply.plain_integer _) _
  · exact plain_onText (fun _ => .answer (by trivial) (by trivial)) _
  · exact plain_onText (fun _ => .answer (by trivial) (by trivial)) _
  · exact plain_onText (fun _ => .answer (by trivial) (by trivial)) _
  · split
    · exact .answer trivial trivial
    · exact .mismatch
  · split
    · exact Reply.plain_truth _
    · exact Reply.plain_truth _
  · exact .mismatch

end StringOperation

theorem plain_symbolTextReply (arguments : List Value) : (symbolTextReply arguments).Plain := by
  unfold symbolTextReply
  split
  · exact .answer trivial trivial
  · exact .mismatch

namespace Correspondence

variable {C : Correspondence} {stage : C.Stage}

theorem Matches.operates {body other : Eval Value} (evaluated : C.Evaluates stage body other) :
    C.Operates stage body other :=
  evaluated.weaken fun _ _ settled => settled.known

namespace Laws

variable (laws : C.Laws)
include laws

/-- Failing operations agree. -/
theorem reject (failure : Failure) : C.Operates stage (Eval.fail failure) (Eval.fail failure) :=
  Matches.throw laws trivial

theorem integer {fine : Image → Escape → Prop} (number : Int) :
    C.Matches Value.Exists fine stage (pure (.ofInt number)) (pure (.ofInt number)) :=
  Matches.pure laws (Value.exists_ofInt number _)

theorem elements_exist (stage : C.Stage) (ref : ArrayRef) :
    Value.AllExist (C.first stage) ((C.first stage).arrayAt ref).toList :=
  fun value member =>
    (laws.formed stage).within.elements ref value (Array.mem_toList_iff.mp member)

theorem conclude (primitive : Primitive) {reply : Reply} (plain : reply.Plain) :
    C.Operates stage (primitive.conclude reply) (primitive.conclude reply) := by
  cases plain with
  | answer plain _ => exact Matches.pure laws (plain.exists _)
  | refuse refusal => exact laws.reject _
  | mismatch => exact laws.reject _

theorem readField {fine : Image → Escape → Prop} {receiver : Value}
    (known : receiver.Exists (C.first stage)) (position : Int64) :
    C.Matches Value.SomeExists fine stage
      (modifyGet fun image =>
        match place? position with
        | some place => image.readField receiver place
        | none => (none, image))
      (modifyGet fun image =>
        match place? position with
        | some place => image.readField receiver place
        | none => (none, image)) := by
  cases place? position with
  | none =>
      exact Matches.modifyGet ⟨laws.refl stage, rfl, rfl⟩ rfl fun value found => by cases found
  | some place =>
      refine laws.perform (.readField receiver place) trivial known rfl rfl
        ((laws.alike stage).readField receiver place) fun after later _ value found => ?_
      exact laws.mono later (Image.readField_good (fun _ plain _ => plain.exists _)
        (laws.formed stage).contains found)

theorem writeField {fine : Image → Escape → Prop} {receiver value : Value}
    (known : receiver.Exists (C.first stage)) (valueKnown : value.Exists (C.first stage))
    (position : Int64) :
    C.Matches (fun _ _ => True) fine stage
      (modifyGet fun image =>
        match place? position with
        | some place => image.writeField receiver place value
        | none => (false, image))
      (modifyGet fun image =>
        match place? position with
        | some place => image.writeField receiver place value
        | none => (false, image)) := by
  cases place? position with
  | none => exact Matches.modifyGet ⟨laws.refl stage, rfl, rfl⟩ rfl trivial
  | some place =>
      exact laws.perform (.writeField receiver place value) trivial ⟨known, valueKnown⟩
        rfl rfl ((laws.alike stage).writeField receiver place value) fun _ _ _ => trivial

theorem makeObject {fine : Image → Escape → Prop} {ref : ClassRef}
    (known : (C.first stage).classes.Has ref) :
    C.Matches Value.Exists fine stage (Eval.makeObject ref) (Eval.makeObject ref) := by
  refine laws.perform (.instantiate ref) trivial known rfl rfl ?_ fun after _ reached => ?_
  · simp only [Image.instantiate, (laws.alike stage).objects]
  · rw [reached]
    exact (Arena.has_push _ _ _).mpr (Or.inr rfl)

theorem setElement {fine : Image → Escape → Prop} (ref : ArrayRef) (place : Nat) {value : Value}
    (known : value.Exists (C.first stage)) :
    C.Matches (fun _ _ => True) fine stage
      (modify fun image => image.setElement ref place value)
      (modify fun image => image.setElement ref place value) :=
  laws.perform (.setElement ref place value) trivial known rfl rfl rfl
    fun _ _ _ => trivial

theorem draw {fine : Image → Escape → Prop} (bound : Int64) :
    C.Matches (fun _ _ => True) fine stage (modifyGet fun image => image.draw bound)
      (modifyGet fun image => image.draw bound) := by
  refine laws.perform (.draw bound) trivial trivial rfl rfl ?_ fun _ _ _ => trivial
  simp only [Image.draw, (laws.alike stage).platform, (laws.alike stage).drawn]

theorem offset {fine : Image → Escape → Prop} (index : Int64) (length : Nat)
    (stops : fine (C.first stage) .stopped) :
    C.Matches (fun _ _ => True) fine stage (Eval.offset? index length)
      (Eval.offset? index length) :=
  Matches.bind laws (laws.difference index 1 stops) fun _ _ _ _ => Matches.pure laws trivial

/-- The text of a value is the same on both sides, if there is one. -/
theorem text {fine : Image → Escape → Prop} (value : Value)
    (exhausted : fine (C.first stage) .exhausted) {next : String → Eval Value}
    (continued : ∀ text, C.Matches Value.Exists fine stage (next text) (next text)) :
    C.Matches Value.Exists fine stage
      (do next (← Eval.ofOption ((← get).text? value)))
      (do next (← Eval.ofOption ((← get).text? value))) := by
  refine Matches.get ?_
  rw [(laws.alike stage).text?]
  cases (C.first stage).text? value with
  | none => exact Matches.throw laws exhausted
  | some text => exact continued text

theorem refuseField (primitive : Primitive) (receiver : Value) (position : Int64) :
    C.Operates stage (primitive.refuseField receiver position)
      (primitive.refuseField receiver position) :=
  laws.text receiver trivial fun _ => laws.reject _

end Laws

section Machines

variable {machine other : Machine} (laws : C.Laws) (partners : C.Partners machine other)
include laws

theorem classOperation_operates (operation : ClassOperation) {arguments : List Value}
    (allKnown : Value.AllExist (C.first stage) arguments) :
    C.Operates stage (operation.run arguments) (operation.run arguments) := by
  have alike := laws.alike stage
  have within := (laws.formed stage).within
  unfold ClassOperation.run
  split
  · exact laws.makeObject allKnown.head
  · refine Matches.get ?_
    rw [alike.className]
    exact Matches.bind laws (laws.meet _) fun _ _ _ _ => Matches.pure laws trivial
  · refine Matches.get ?_
    rw [alike.classAt]
    refine Matches.bind laws (laws.meetAll _) fun _ _ _ _ => laws.makeArray fun value member => ?_
    obtain ⟨name, -, rfl⟩ := List.mem_map.mp (List.mem_toArray.mp member)
    trivial
  · next ref _ =>
      refine Matches.get ?_
      rw [alike.classAt]
      refine laws.makeArray fun value member => ?_
      obtain ⟨method, held, rfl⟩ := List.mem_map.mp (List.mem_toArray.mp member)
      exact within.dictionaries ref method held
  · next ref _ =>
      refine Matches.get ?_
      rw [alike.classAt]
      cases parent : ((C.first stage).classAt ref).superclass with
      | none => exact Matches.pure laws trivial
      | some above => exact Matches.pure laws (within.superclasses ref above parent)
  · exact laws.reject _

theorem arrayOperation_operates (operation : ArrayOperation) {arguments : List Value}
    (allKnown : Value.AllExist (C.first stage) arguments) :
    C.Operates stage (operation.run arguments) (operation.run arguments) := by
  have alike := laws.alike stage
  have within := (laws.formed stage).within
  unfold ArrayOperation.run
  dsimp only
  split
  · next ref index _ =>
      refine Matches.get ?_
      rw [alike.arrayAt]
      refine Matches.bind laws (laws.offset index _ trivial) fun after later found _ => ?_
      cases found with
      | none => exact laws.reject _
      | some place =>
          refine Matches.pure laws (laws.mono later ?_)
          cases element : ((C.first stage).arrayAt ref)[place]? with
          | none => trivial
          | some value => exact within.elements ref value (Array.mem_of_getElem? element)
  · next ref index value _ =>
      refine Matches.get ?_
      rw [alike.arrayAt]
      refine Matches.bind laws (laws.offset index _ trivial) fun between earlier found _ => ?_
      cases found with
      | none => exact laws.reject _
      | some place =>
          refine Matches.bind laws
            (laws.setElement ref place (laws.mono earlier allKnown.tail.tail.head))
            fun after later _ _ => ?_
          exact Matches.pure laws (laws.mono later (laws.mono earlier allKnown.head))
  · refine Matches.get ?_
    rw [alike.arrayAt]
    exact laws.integer _
  · exact laws.reject _

theorem factoryOperation_operates (operation : FactoryOperation) (arguments : List Value) :
    C.Operates stage (operation.run arguments) (operation.run arguments) := by
  unfold FactoryOperation.run
  dsimp only
  split
  · split
    · exact laws.reject _
    · split
      · exact laws.integer _
      · exact laws.reject _
  · split
    · exact Matches.pure laws trivial
    · exact laws.reject _
  · exact Matches.pure laws trivial
  · split
    · exact laws.reject _
    · refine laws.makeArray fun value member => ?_
      rw [(Array.mem_replicate.mp member).2]
      trivial
  · exact laws.reject _

theorem integerOperation_operates (operation : IntegerOperation) (arguments : List Value) :
    C.Operates stage (operation.run arguments) (operation.run arguments) := by
  unfold IntegerOperation.run
  split
  · unfold IntegerOperation.random
    split
    · split
      · exact Matches.bind laws (laws.draw _) fun _ _ _ _ => Matches.pure laws trivial
      · exact laws.reject _
    · exact laws.reject _
    · exact laws.reject _
  · exact laws.conclude _ (operation.plain_reply arguments)

theorem stringOperation_operates (operation : StringOperation) (arguments : List Value) :
    C.Operates stage (operation.run arguments) (operation.run arguments) := by
  unfold StringOperation.run
  dsimp only
  split
  · exact Matches.bind laws (laws.meet _) fun _ _ _ _ => Matches.pure laws trivial
  · exact Matches.pure laws trivial
  · exact Matches.bind laws (laws.difference _ _ trivial) fun _ _ _ _ =>
      laws.conclude _ (StringOperation.plain_excerpt _ _ _)
  · exact laws.conclude _ (StringOperation.plain_reply _ _)

include partners

theorem branch_operates {value : Value} (known : value.Exists (C.first stage)) :
    C.Operates stage (machine.branch value) (other.branch value) := by
  unfold Machine.branch
  split
  · next ref =>
      refine Matches.get ?_
      rw [(laws.alike stage).parameters]
      split
      · exact (partners.block known (.nil _)).operates
      · exact Matches.pure laws known
  · exact Matches.pure laws known

theorem booleanOperation_operates (operation : BooleanOperation) {arguments : List Value}
    (allKnown : Value.AllExist (C.first stage) arguments) :
    C.Operates stage (operation.run machine arguments) (operation.run other arguments) := by
  unfold BooleanOperation.run
  split
  · split
    · exact branch_operates laws partners allKnown.tail.head
    · exact Matches.pure laws trivial
  · split
    · exact Matches.pure laws trivial
    · exact branch_operates laws partners allKnown.tail.head
  · refine branch_operates laws partners ?_
    split
    · exact allKnown.tail.head
    · exact allKnown.tail.tail.head
  · refine branch_operates laws partners ?_
    split
    · exact allKnown.tail.tail.head
    · exact allKnown.tail.head
  · exact Matches.pure laws trivial
  · split
    · exact branch_operates laws partners allKnown.tail.head
    · exact Matches.pure laws trivial
  · split
    · exact Matches.pure laws trivial
    · exact branch_operates laws partners allKnown.tail.head
  · exact laws.reject _

theorem runLoop_operates (operation : BlockOperation) (expected : Bool)
    {condition body : BlockRef} (conditionKnown : (C.first stage).heap.blocks.Has condition)
    (bodyKnown : (C.first stage).heap.blocks.Has body) :
    C.Operates stage (BlockOperation.runLoop machine operation expected condition body)
      (BlockOperation.runLoop other operation expected condition body) := by
  refine Matches.get ?_
  rw [(laws.alike stage).parameters, (laws.alike stage).parameters]
  split
  · exact (loop_evaluates laws partners expected partners.patience conditionKnown
      bodyKnown).operates
  · exact laws.reject _

theorem blockOperation_operates (operation : BlockOperation) {arguments : List Value}
    (allKnown : Value.AllExist (C.first stage) arguments) :
    C.Operates stage (operation.run machine arguments) (operation.run other arguments) := by
  unfold BlockOperation.run
  split
  · refine Matches.get ?_
    rw [(laws.alike stage).parameters]
    exact laws.integer _
  · exact runLoop_operates laws partners _ true allKnown.head allKnown.tail.head
  · exact runLoop_operates laws partners _ false allKnown.head allKnown.tail.head
  · exact (partners.block allKnown.head (.nil _)).operates
  · exact (partners.block allKnown.head (.cons allKnown.tail.head (.nil _))).operates
  · exact (partners.block allKnown.head
      (.cons allKnown.tail.head (.cons allKnown.tail.tail.head (.nil _)))).operates
  · exact laws.reject _

theorem methodOperation_operates (operation : MethodOperation) {arguments : List Value}
    (allKnown : Value.AllExist (C.first stage) arguments) :
    C.Operates stage (operation.run machine arguments) (operation.run other arguments) := by
  have alike := laws.alike stage
  unfold MethodOperation.run
  split
  · next ref _ =>
      refine Matches.get ?_
      rw [(alike.methods ref).holder]
      exact Matches.pure laws ((laws.formed stage).within.holders ref allKnown.head)
  · next ref _ =>
      refine Matches.get ?_
      rw [(alike.methods ref).selector]
      exact Matches.pure laws trivial
  · next ref receiver operands _ =>
      refine Matches.get ?_
      rw [alike.arrayAt]
      exact (partners.method ref
        (.cons allKnown.tail.head (laws.elements_exist stage operands))).operates
  · exact laws.reject _

theorem objectOperation_operates (operation : ObjectOperation) {arguments : List Value}
    (allKnown : Value.AllExist (C.first stage) arguments) :
    C.Operates stage (operation.run machine arguments) (operation.run other arguments) := by
  have alike := laws.alike stage
  have formed := (laws.formed stage)
  unfold ObjectOperation.run
  dsimp only
  split
  · refine Matches.get ?_
    rw [alike.classOf]
    exact Matches.pure laws (Image.has_classOf formed allKnown.head)
  · next value _ =>
      refine Matches.get ?_
      rw [alike.hashcode?]
      cases (C.first stage).hashcode? value with
      | none => exact Matches.throw laws trivial
      | some code => exact Matches.pure laws trivial
  · exact (send_evaluates laws partners _ (.cons allKnown.head (.nil _))).operates
  · exact (send_evaluates laws partners _
      (.cons allKnown.head (.cons allKnown.tail.tail.head (.nil _)))).operates
  · next operands _ =>
      refine Matches.get ?_
      rw [alike.arrayAt]
      exact (send_evaluates laws partners _
        (.cons allKnown.head (laws.elements_exist stage operands))).operates
  · next receiver selector origin _ =>
      refine Matches.get ?_
      rw [alike.lookup]
      cases (C.first stage).lookup origin selector with
      | none =>
          exact (notUnderstood_evaluates laws partners selector allKnown.head (.nil _)).operates
      | some method => exact (partners.method method (.cons allKnown.head (.nil _))).operates
  · next receiver index _ =>
      refine Matches.bind laws (laws.difference index 1 trivial)
        fun between earlier position _ => ?_
      refine Matches.bind laws (laws.readField (laws.mono earlier allKnown.head) position)
        fun after _ result known => ?_
      cases result with
      | some value => exact Matches.pure laws (known value rfl)
      | none => exact laws.refuseField _ _ _
  · next receiver index value _ =>
      refine Matches.bind laws (laws.difference index 1 trivial)
        fun between earlier position _ => ?_
      have incoming := laws.mono earlier allKnown.tail.tail.head
      refine Matches.bind laws
        (laws.writeField (laws.mono earlier allKnown.head) incoming position)
        fun after later written _ => ?_
      cases written with
      | true => exact Matches.pure laws (laws.mono later incoming)
      | false => exact laws.refuseField _ _ _
  · exact laws.text _ trivial fun _ => laws.reject _
  · exact Matches.pure laws trivial
  · exact laws.reject _

/-- Every primitive operation agrees. -/
theorem primitive_operates (primitive : Primitive) {arguments : List Value}
    (allKnown : Value.AllExist (C.first stage) arguments) :
    C.Operates stage (primitive.run machine arguments) (primitive.run other arguments) := by
  cases primitive with
  | object operation => exact objectOperation_operates laws partners operation allKnown
  | classObject operation => exact classOperation_operates laws operation allKnown
  | boolean operation => exact booleanOperation_operates laws partners operation allKnown
  | integer operation => exact integerOperation_operates laws operation arguments
  | double operation => exact laws.conclude _ (operation.plain_reply arguments)
  | array operation => exact arrayOperation_operates laws operation allKnown
  | string operation => exact stringOperation_operates laws operation arguments
  | symbolAsString => exact laws.conclude _ (plain_symbolTextReply arguments)
  | block operation => exact blockOperation_operates laws partners operation allKnown
  | method operation => exact methodOperation_operates laws partners operation allKnown
  | factory operation => exact factoryOperation_operates laws operation arguments

end Machines

end Correspondence

end MessageMachine
