import MessageMachine.Proofs.Discipline.Obedience

/-!
# The laws of a discipline

What single steps have to do for evaluations to keep to a discipline.  The laws come in groups: what
values there are, which escapes are fine, what changing the image comes to, what the expressions of
a program do, and what can be counted on when an activation is asked for, is entered and is left.
-/

namespace MessageMachine

/-- The site and the selector of a send, be it a control message or not. -/
def Code.sending? : Code → Option (CallSiteRef × Selector)
  | .send site selector _ _ => some (site, selector)
  | .control _ _ site selector _ _ => some (site, selector)
  | _ => none

mutual

/-- The big integers in a literal. -/
def Datum.bigNumbers : Datum → List Int
  | .big number => [number]
  | .array items => Datum.allBigNumbers items
  | _ => []

/-- The big integers in literals. -/
def Datum.allBigNumbers : List Datum → List Int
  | [] => []
  | item :: rest => item.bigNumbers ++ Datum.allBigNumbers rest

end

/-- Whether an activation takes up returns to its frame. -/
def Activation.isMethod : Activation → Bool
  | .method _ _ => true
  | .block _ _ => false

/-- The activations that operations ask for no matter what is found by a lookup for the receiver. -/
inductive Primitive.Calls (image : Image) : Primitive → List Value → Activation → Prop
  | value {ref : BlockRef} {rest : List Value} :
      Calls image (.block .value) (.block ref :: rest) (.block ref [])
  | valueWith {ref : BlockRef} {operand : Value} {rest : List Value} :
      Calls image (.block .valueWith) (.block ref :: operand :: rest) (.block ref [operand])
  | valueWithWith {ref : BlockRef} {first second : Value} {rest : List Value} :
      Calls image (.block .valueWithWith) (.block ref :: first :: second :: rest)
        (.block ref [first, second])
  | invoked {ref : MethodRef} {receiver : Value} {operands : ArrayRef} {rest : List Value} :
      Calls image (.method .invokeOnWith) (.method ref :: receiver :: .array operands :: rest)
        (.method ref (receiver :: (image.arrayAt operands).toList))
  | inSuperclass {receiver : Value} {selector : Selector} {origin : ClassRef} {rest : List Value}
      {method : MethodRef} : image.lookup origin selector = some method →
      Calls image (.object .performInSuperclass)
        (receiver :: .symbol selector :: .classObject origin :: rest) (.method method [receiver])

/-- The array that an operation puts a value into, if its arguments are of the right kinds. -/
inductive Primitive.Puts : Primitive → List Value → ArrayRef → Value → Prop
  | intro {ref : ArrayRef} {index : Int64} {value : Value} {rest : List Value} :
      Puts (.array .atPut) (.array ref :: .integer index :: value :: rest) ref value

/-- The field that an operation writes a value to, if its arguments are of the right kinds. -/
inductive Primitive.Assigns (image : Image) : Primitive → List Value → Value → Nat → Value → Prop
  | intro {receiver value : Value} {position offset : Int64} {place : Nat} {rest : List Value} :
      image.platform.difference? position 1 = some offset → place? offset = some place →
      Assigns image (.object .fieldAtPut) (receiver :: .integer position :: value :: rest) receiver
        place value

theorem Primitive.Assigns.receiver_mem {image : Image} {primitive : Primitive}
    {arguments : List Value} {receiver value : Value} {place : Nat}
    (assigns : primitive.Assigns image arguments receiver place value) : receiver ∈ arguments := by
  cases assigns
  exact List.mem_cons_self

theorem Primitive.Assigns.value_mem {image : Image} {primitive : Primitive}
    {arguments : List Value} {receiver value : Value} {place : Nat}
    (assigns : primitive.Assigns image arguments receiver place value) : value ∈ arguments := by
  cases assigns
  simp only [List.mem_cons, true_or, or_true]

theorem Primitive.Puts.mem {primitive : Primitive} {arguments : List Value} {ref : ArrayRef}
    {value : Value} (puts : primitive.Puts arguments ref value) : value ∈ arguments := by
  cases puts
  simp only [List.mem_cons, true_or, or_true]

namespace Discipline

variable (D : Discipline)

/-- The changes that sends and operations make to an image, with values that are good. -/
def May (image : Image) : Action → Prop
  | .noteDown _ => True
  | .meet _ => True
  | .draw _ => True
  | .makeArray elements => ∀ value ∈ elements, D.Good image value
  | .instantiate owner => D.Good image (.classObject owner)
  | .readField receiver _ => D.Good image receiver
  | .settle _ => True
  | _ => False

/-- Whether what holds goes on to hold. -/
def Steps (image after : Image) : Prop :=
  D.Holds after ∧ D.Later image after

/-- Whether an operation is run by an activation that the discipline is about. -/
def Performs (image : Image) (primitive : Primitive) (arguments : List Value) : Prop :=
  ∃ budget ref, D.Begun ⟨budget + 1, .method ref arguments, image⟩ ∧
    D.Runs image (.method ref arguments) ∧ (image.methodAt ref).behavior = .primitive primitive

/-- The values that programs come by. -/
structure Values : Prop where
  keep : ∀ {image after value}, D.Later image after → D.Good image value → D.Good after value
  plain : ∀ {value : Value} (image : Image), value.IsPlain → value.IsNormal → D.Good image value
  receiver : ∀ {image : Image}, D.Holds image →
    ∀ frame, D.Good image (image.frameAt frame).receiver
  slot : ∀ {image : Image} {frame slot value}, D.Holds image →
    image.slot? frame slot = some value → D.Good image value
  global : ∀ {image : Image} {name value}, D.Holds image → image.global? name = some value →
    D.Good image value
  element : ∀ {image : Image} {ref value}, D.Holds image → value ∈ image.arrayAt ref →
    D.Good image value
  field : ∀ {image : Image} {receiver index value}, D.Holds image →
    (image.readField receiver index).1 = some value → D.Good image value
  fieldAt : ∀ {image : Image} {site receiver index value}, D.Holds image →
    (image.readFieldAt site receiver index).1 = some value → D.Good image value
  classOf : ∀ {image : Image} {value}, D.Holds image → D.Good image value →
    D.Good image (.classObject (image.classOf value))
  superclass : ∀ {image : Image} {ref parent}, D.Holds image →
    (image.classAt ref).superclass = some parent → D.Good image (.classObject parent)
  entry : ∀ {image : Image} {ref method}, D.Holds image →
    method ∈ (image.classAt ref).methods.values → D.Good image (.method method)
  holder : ∀ {image : Image} {ref}, D.Holds image → D.Good image (.method ref) →
    D.Good image (.classObject (image.methodAt ref).holder)
  array : ∀ (image : Image) elements,
    D.Good (image.addArray elements) (.array image.heap.arrays.next)
  object : ∀ (image : Image) owner,
    D.Good (image.instantiate owner).2 (.object image.heap.objects.next)
  closure : ∀ (image : Image) closure,
    D.Good (image.addBlock closure) (.block image.heap.blocks.next)

/-- Where nothing is said about values there is nothing to show. -/
theorem Values.of_any (any : ∀ image value, D.Good image value) : D.Values where
  keep := fun _ _ => any _ _
  plain := fun _ _ _ => any _ _
  receiver := fun _ _ => any _ _
  slot := fun _ _ => any _ _
  global := fun _ _ => any _ _
  element := fun _ _ => any _ _
  field := fun _ _ => any _ _
  fieldAt := fun _ _ => any _ _
  classOf := fun _ _ => any _ _
  superclass := fun _ _ => any _ _
  entry := fun _ _ => any _ _
  holder := fun _ _ => any _ _
  array := fun _ _ => any _ _
  object := fun _ _ => any _ _
  closure := fun _ _ => any _ _

/-- The escapes that are always fine. -/
structure Escapes : Prop where
  exhausted : ∀ image, D.Fine image .exhausted
  stopped : ∀ image, D.Fine image .stopped
  failed : ∀ {failure : Failure} image backtrace, (∀ fault, failure ≠ .internal fault) →
    D.Fine image (.failed { failure, backtrace })
  traced : ∀ {image failure backtrace} longer, D.Fine image (.failed { failure, backtrace }) →
    D.Fine image (.failed { failure, backtrace := longer })
  unwound : ∀ {image value home}, D.Fine image (.unwinding value home) → D.Good image value

/-- Where nothing is said about escapes either there is nothing to show. -/
theorem Escapes.of_any (fine : ∀ image escape, D.Fine image escape)
    (good : ∀ image value, D.Good image value) : D.Escapes where
  exhausted := fun _ => fine _ _
  stopped := fun _ => fine _ _
  failed := fun _ _ _ => fine _ _
  traced := fun _ _ => fine _ _
  unwound := fun _ => good _ _

/-- What expressions do. -/
structure Programs : Prop where
  carry : ∀ {image after frame code}, D.Later image after → D.Fits image frame code →
    D.Fits after frame code
  parts : ∀ {image frame code}, D.Fits image frame code → ∀ part ∈ code.parts,
    D.Fits image frame part
  literal : ∀ {image frame datum}, D.Fits image frame (.literal datum) →
    ∀ number ∈ datum.bigNumbers, D.Good image (.big number)
  read : ∀ {image : Image} {frame slot}, D.Holds image → D.Fits image frame (.read slot) →
    image.slot? frame slot = none →
    D.Fine image (.failed { failure := .internal (.slotNotRead slot), backtrace := #[] })
  write : ∀ {image : Image} {frame slot code value home}, D.Holds image →
    D.Fits image frame (.write slot code) → D.Good image value →
    image.slotHome? frame slot = some home →
    D.Steps image ((Action.setSlot home slot.kind slot.index value).perform image)
  unwritten : ∀ {image : Image} {frame slot code}, D.Holds image →
    D.Fits image frame (.write slot code) → image.slotHome? frame slot = none →
    D.Fine image (.failed { failure := .internal (.slotNotWritten slot), backtrace := #[] })
  readField : ∀ {image : Image} {frame site index}, D.Holds image →
    D.Fits image frame (.readField site index) →
    let answer := image.readFieldAt site (image.frameAt frame).receiver index
    D.Steps image answer.2 ∧ (answer.1 = none →
      D.Fine answer.2 (.failed { failure := .internal (.fieldNotRead index), backtrace := #[] }))
  writeField : ∀ {image : Image} {frame site index code value}, D.Holds image →
    D.Fits image frame (.writeField site index code) → D.Good image value →
    D.Given frame (.writeField site index code) [value] image →
    let answer := image.writeFieldAt site (image.frameAt frame).receiver index value
    D.Steps image answer.2 ∧ (answer.1 = false →
      D.Fine answer.2 (.failed { failure := .internal (.fieldNotWritten index), backtrace := #[] }))
  block : ∀ {image : Image} {frame parameters temporaries captures body}, D.Holds image →
    D.Fits image frame (.block parameters temporaries captures body) →
    D.Here frame (.block parameters temporaries captures body) image →
    D.Steps image (image.addBlock
      { captured := if captures then some frame else none, parameters, temporaries, body })
  answer : ∀ {image : Image} {frame code span value}, D.Holds image →
    D.Fits image frame (.answer code span) → D.Good image value →
    (image.frameAt (image.outermost frame)).live = true →
    D.Fine image (.unwinding value (image.outermost frame))
  resolve : ∀ {image : Image} {frame code site selector receiver}, D.Holds image →
    D.Fits image frame code → code.sending? = some (site, selector) → D.Good image receiver →
    (∃ operands earlier, D.Given frame code (receiver :: operands) earlier) →
    let answer := image.lookupAt site selector receiver
    D.Steps image answer.2 ∧ ∀ method, answer.1 = some method →
      ∀ operands, D.AllGood answer.2 operands →
      D.Runs answer.2 (.method method (receiver :: operands))
  resolveSuper : ∀ {earlier image : Image} {frame site origin selector codes}, D.Holds earlier →
    D.Fits earlier frame (.superSend site origin selector codes) → D.Later earlier image →
    D.Holds image →
    (∃ operands, D.Given frame (.superSend site origin selector codes) operands image) →
    let answer := image.lookupSuperAt site origin selector
    D.Steps image answer.2 ∧ ∀ method, answer.1 = some method →
      ∀ operands, D.AllGood answer.2 operands →
      D.Runs answer.2 (.method method ((earlier.frameAt frame).receiver :: operands))

/-- What activations are asked for, and what they do to begin with and in the end. -/
structure Activations : Prop where
  found : ∀ {earlier image : Image} {receiver selector method operands}, D.Holds earlier →
    D.Good earlier receiver → earlier.lookupFor receiver selector = some method →
    D.Later earlier image → D.Holds image → D.AllGood image operands →
    D.Runs image (.method method (receiver :: operands))
  called : ∀ {earlier image : Image} {ref}, D.Holds earlier → D.Good earlier (.block ref) →
    (earlier.blockAt ref).parameters = 0 → D.Later earlier image → D.Holds image →
    D.Runs image (.block ref [])
  arguments : ∀ {image ref arguments}, D.Runs image (.method ref arguments) →
    D.AllGood image arguments
  accompanied : ∀ {image ref}, D.Runs image (.method ref []) → ∀ after fault,
    D.Fine after (.failed { failure := .internal fault, backtrace := #[] })
  calls : ∀ {image primitive arguments activation}, D.Holds image →
    D.Performs image primitive arguments → primitive.Calls image arguments activation →
    D.Runs image activation
  puts : ∀ {image primitive arguments ref value}, D.Holds image →
    D.Performs image primitive arguments → primitive.Puts arguments ref value →
    ∀ place, D.Steps image ((Action.setElement ref place value).perform image)
  assigns : ∀ {image primitive arguments receiver place value}, D.Holds image →
    D.Performs image primitive arguments → primitive.Assigns image arguments receiver place value →
    D.Good image receiver → D.Good image value →
    D.Steps image ((Action.writeField receiver place value).perform image)
  nested : ∀ {budget activation begun asked image},
    D.Begun ⟨budget + 1, activation, begun⟩ →
    activation.Asks (.ofBudget budget) begun asked image → D.Begun ⟨budget, asked, image⟩
  here : ∀ {running frame code image}, D.Begun running →
    running.Evaluates frame code image → D.Here frame code image
  given : ∀ {budget activation begun frame code image values after},
    D.Begun ⟨budget + 1, activation, begun⟩ →
    Running.Evaluates ⟨budget + 1, activation, begun⟩ frame code image →
    Code.evaluateAll (.ofBudget budget) frame code.parts image = .ok values after →
    D.Given frame code values after
  enter : ∀ {budget : Nat} {activation : Activation} {image : Image} {frame body},
    D.Holds image → D.Runs image activation → D.Begun ⟨budget + 1, activation, image⟩ →
    activation.opening? image = some (frame, body) →
    D.Holds (image.addFrame frame) ∧
      ∀ code ∈ body, D.Fits (image.addFrame frame) image.heap.frames.next code
  leave : ∀ {activation : Activation} {image : Image} {frame body after}, D.Holds image →
    D.Runs image activation → activation.opening? image = some (frame, body) →
    D.Later (image.addFrame frame) after → D.Holds after →
    let final := (Action.leave image.heap.frames.next).perform after
    D.Steps image final ∧ (∀ value, D.Good after value → D.Good final value) ∧
      ∀ escape, D.Fine after escape →
        (activation.isMethod = true → ∀ value, escape ≠ .unwinding value image.heap.frames.next) →
        D.Fine final escape

/-- What single steps have to do for programs to keep to a discipline. -/
structure Laws : Prop extends D.Order, D.Values, D.Escapes, D.Programs, D.Activations where
  act : ∀ {image action}, D.Holds image → D.May image action →
    D.Steps image (action.perform image)

end Discipline

end MessageMachine
