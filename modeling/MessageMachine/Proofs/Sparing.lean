import MessageMachine.Proofs.Invariance
import MessageMachine.Proofs.Succession

/-!
# What happens to arrays

An array is changed by the one operation that puts a value into it, and by nothing else that a
session does.  The arrays that the operation is never run on are spared: from any image of the
session to a later one they stay as they are, while arrays are added and never taken away.
-/

namespace MessageMachine

namespace Image

/-- Arrays come into existence by being made, and are changed by having elements set. -/
theorem arrays_perform (image : Image) (action : Action) :
    (∃ elements, action = .makeArray elements) ∨
      (∃ ref place value, action = .setElement ref place value) ∨
      (action.perform image).heap.arrays = image.heap.arrays := by
  have anything : ∀ value : Value, value.IsPlain → value.IsNormal → True :=
    fun _ _ _ => trivial
  cases action with
  | makeArray elements => exact Or.inl ⟨elements, rfl⟩
  | setElement ref place value => exact Or.inr (Or.inl ⟨ref, place, value, rfl⟩)
  | readField receiver index =>
      exact Or.inr (Or.inr (readField_tended anything image receiver index).arrays)
  | writeField receiver index value =>
      exact Or.inr (Or.inr (writeField_tended anything image receiver index trivial).arrays)
  | readFieldAt site receiver index =>
      exact Or.inr (Or.inr (readFieldAt_tended anything image site receiver index).arrays)
  | writeFieldAt site receiver index value =>
      exact Or.inr (Or.inr (writeFieldAt_tended anything image site receiver index trivial).arrays)
  | resolve site selector receiver =>
      rcases image.lookupAt_eq site selector receiver with ⟨calls, journal, -, result⟩
      rw [Action.perform, result]
      exact Or.inr (Or.inr rfl)
  | resolveSuper site origin selector =>
      rcases image.lookupSuperAt_eq site origin selector with ⟨calls, -, result⟩
      rw [Action.perform, result]
      exact Or.inr (Or.inr rfl)
  | install holder selector behavior =>
      rcases image.addMethod_eq holder selector behavior with ⟨journal, installed⟩
      rw [Action.perform, installed]
      exact Or.inr (Or.inr rfl)
  | register name superclass fields classFields =>
      rw [Action.perform, registerPair_eq]
      exact Or.inr (Or.inr rfl)
  | _ => exact Or.inr (Or.inr rfl)

/-- Whether no array is taken away, and those that are to be spared stay as they are. -/
structure Spares (spared : ArrayRef → Prop) (image after : Image) : Prop where
  count : image.heap.arrays.size ≤ after.heap.arrays.size
  kept : ∀ ref, spared ref → image.heap.arrays.Has ref → after.arrayAt ref = image.arrayAt ref

namespace Spares

variable {spared : ArrayRef → Prop} {image between after : Image}

theorem has (spares : image.Spares spared after) {ref : ArrayRef}
    (known : image.heap.arrays.Has ref) : after.heap.arrays.Has ref :=
  Nat.lt_of_lt_of_le known spares.count

theorem of_arrays (same : after.heap.arrays = image.heap.arrays) : image.Spares spared after where
  count := Nat.le_of_eq (congrArg Arena.size same).symm
  kept := fun ref _ _ => congrArg (·.get ref) same

theorem refl (spared : ArrayRef → Prop) (image : Image) : image.Spares spared image :=
  of_arrays rfl

theorem trans (first : image.Spares spared between) (second : between.Spares spared after) :
    image.Spares spared after where
  count := Nat.le_trans first.count second.count
  kept := fun ref member known =>
    (second.kept ref member (first.has known)).trans (first.kept ref member known)

theorem addArray (spared : ArrayRef → Prop) (image : Image) (elements : Array Value) :
    image.Spares spared (image.addArray elements) where
  count := by
    rw [Image.addArray, Arena.size_push]
    exact Nat.le_succ _
  kept := fun _ _ known => Arena.get_push_of_has elements known

theorem setElement {changed : ArrayRef} (apart : ¬ spared changed) (image : Image) (place : Nat)
    (value : Value) : image.Spares spared (image.setElement changed place value) where
  count := Nat.le_of_eq (Arena.size_modify _ _ _).symm
  kept := fun ref member _ => by
    have other : ref ≠ changed := fun same => apart (same ▸ member)
    rw [arrayAt, arrayAt, Image.setElement, Arena.get_modify]
    simp only [other, false_and, if_false]

/-- An action spares the arrays that it does not set elements of. -/
theorem perform (image : Image) {action : Action}
    (avoids : ∀ ref place value, action = .setElement ref place value → ¬ spared ref) :
    image.Spares spared (action.perform image) := by
  rcases image.arrays_perform action with ⟨elements, rfl⟩ | ⟨ref, place, value, rfl⟩ | same
  · exact addArray spared image elements
  · exact setElement (avoids ref place value rfl) image place value
  · exact of_arrays same

/-- The definition of methods has nothing to do with arrays. -/
theorem withstands (start : Image) (accepted : Source.MethodDefinition → Prop) :
    Image.Withstands accepted (start.Spares spared ·) := by
  intro image action defines holds
  refine holds.trans (.perform image ?_)
  intro ref place value same
  cases defines <;> cases same

end Spares

end Image

/-- Requests that run nothing spare all arrays. -/
theorem Request.spares_serve {spared : ArrayRef → Prop} {machine : Machine} {request : Request}
    (still : request.evaluation? = none) (image : Image) :
    image.Spares spared (request.serve machine image).2 := by
  have acts (action : Action)
      (other : ∀ ref place value, action ≠ .setElement ref place value) :
      image.Spares spared (action.perform image) :=
    .perform image fun ref place value same => absurd same (other ref place value)
  have withstands : Image.Withstands (fun _ => True) (image.Spares spared ·) :=
    Image.Spares.withstands image _
  have start := Image.Spares.refl spared image
  cases request with
  | defineClass definition =>
      rw [serve, Response.ofDefining_snd]
      exact Image.defineClass_leaves withstands start definition (fun _ _ => trivial)
        fun _ _ _ => acts (.register _ _ _ _) fun _ _ _ => Action.noConfusion
  | installMethod holder definition =>
      rw [serve, Response.ofDefining_snd]
      exact Image.installMethod_leaves withstands start holder trivial
  | prepareMethod holder definition =>
      rw [serve, Response.ofDefining_snd]
      exact Image.prepareMethod_leaves withstands start holder definition
  | removeMethod holder selector =>
      exact acts (.remove holder selector) fun _ _ _ => Action.noConfusion
  | instantiate owner => exact acts (.instantiate owner) fun _ _ _ => Action.noConfusion
  | makeArray elements => exact .addArray spared image elements.toArray
  | detach block => exact .of_arrays rfl
  | meet name => exact .of_arrays rfl
  | setGlobal name value => exact acts (.bind name value) fun _ _ _ => Action.noConfusion
  | readField receiver index =>
      exact acts (.readField receiver index) fun _ _ _ => Action.noConfusion
  | writeField receiver index value =>
      exact acts (.writeField receiver index value) fun _ _ _ => Action.noConfusion
  | send | invoke | deliver | activate => cases still

/-- Whether an activation runs the operation that puts a value into an array. -/
def Running.Puts (running : Running) (ref : ArrayRef) : Prop :=
  ∃ method arguments primitive value, running.activation = .method method arguments ∧
    (running.image.methodAt method).behavior = .primitive primitive ∧
    primitive.Puts arguments ref value

/-- Whether no value is ever put into certain arrays in a session. -/
def Session.Avoids (session : Session) (spared : ArrayRef → Prop) : Prop :=
  ∀ {running below}, session.Underway (running :: below) → ∀ ref, spared ref → ¬ running.Puts ref

/-- Nothing has to be avoided if no array is to be spared. -/
theorem Session.avoids_none (session : Session) : session.Avoids fun _ => False :=
  fun _ _ none => none.elim

namespace Discipline

/-- The discipline of sparing arrays. -/
def sparing (session : Session) (spared : ArrayRef → Prop) : Discipline where
  Holds := fun _ => True
  Later := Image.Spares spared
  Good := fun _ _ => True
  Fine := fun _ _ => True
  Fits := fun _ _ _ => True
  Runs := fun _ _ => True
  Begun := fun running => ∃ below, session.Underway (running :: below)
  Here := fun _ _ _ => True
  Given := fun _ _ _ _ => True

variable {session : Session} {spared : ArrayRef → Prop}

theorem sparing_act (image : Image) (action : Action)
    (other : ∀ ref place value, action ≠ .setElement ref place value) :
    (sparing session spared).Steps image (action.perform image) :=
  ⟨trivial, .perform image fun ref place value same => absurd same (other ref place value)⟩

theorem sparing_laws (avoids : session.Avoids spared) : (sparing session spared).Laws where
  toOrder := ⟨Image.Spares.refl spared, Image.Spares.trans⟩
  toValues := .of_any _ fun _ _ => trivial
  toEscapes := .of_any _ (fun _ _ => trivial) fun _ _ => trivial
  toPrograms := {
    carry := fun _ _ => trivial
    parts := fun _ _ _ => trivial
    literal := fun _ _ _ => trivial
    read := fun _ _ _ => trivial
    write := fun _ _ _ _ => ⟨trivial, .of_arrays rfl⟩
    unwritten := fun _ _ _ => trivial
    readField := fun {image frame site index} _ _ =>
      ⟨sparing_act image (.readFieldAt site (image.frameAt frame).receiver index)
        fun _ _ _ => Action.noConfusion, fun _ => trivial⟩
    writeField := fun {image frame site index _ value} _ _ _ _ =>
      ⟨sparing_act image (.writeFieldAt site (image.frameAt frame).receiver index value)
        fun _ _ _ => Action.noConfusion, fun _ => trivial⟩
    block := fun _ _ _ => ⟨trivial, .of_arrays rfl⟩
    answer := fun _ _ _ _ => trivial
    resolve := fun {image _ _ site selector receiver} _ _ _ _ _ =>
      ⟨sparing_act image (.resolve site selector receiver) fun _ _ _ => Action.noConfusion,
        fun _ _ _ _ => trivial⟩
    resolveSuper := fun {_ image _ site origin selector _} _ _ _ _ _ =>
      ⟨sparing_act image (.resolveSuper site origin selector) fun _ _ _ => Action.noConfusion,
        fun _ _ _ _ => trivial⟩ }
  toActivations := {
    found := fun _ _ _ _ _ _ => trivial
    called := fun _ _ _ _ _ => trivial
    arguments := fun _ _ _ => trivial
    accompanied := fun _ _ _ => trivial
    calls := fun _ _ _ => trivial
    puts := fun {image _ _ ref value} _ ⟨_, _, ⟨_, moment⟩, _, behavior⟩ puts place =>
      ⟨trivial, .setElement (fun member =>
        avoids moment ref member ⟨_, _, _, value, rfl, behavior, puts⟩) image place value⟩
    assigns := fun {image _ _ receiver place value} _ _ _ _ _ =>
      sparing_act image (.writeField receiver place value) fun _ _ _ => Action.noConfusion
    nested := fun ⟨_, moment⟩ asks => ⟨_, .nested moment asks⟩
    here := fun _ _ => trivial
    given := fun _ _ _ => trivial
    enter := fun _ _ _ _ => ⟨trivial, fun _ _ => trivial⟩
    leave := fun {_ image frame _ after} _ _ _ later _ => by
      have entered : image.Spares spared (image.addFrame frame) := .of_arrays rfl
      have left : after.Spares spared ((Action.leave image.heap.frames.next).perform after) :=
        .of_arrays rfl
      exact ⟨⟨trivial, (entered.trans later).trans left⟩, fun _ _ => trivial,
        fun _ _ _ => trivial⟩ }
  act := fun {image action} _ may => by
    refine sparing_act image action fun ref place value same => ?_
    subst same
    exact may.elim

theorem sparing_hosts (avoids : session.Avoids spared) :
    (sparing session spared).Hosts session where
  begun := fun moment => ⟨_, moment⟩
  evaluates := fun _ evaluation => request_keeps_of_any (sparing_laws avoids) (fun _ _ => trivial)
    (fun _ _ => trivial) trivial evaluation

/-- Arrays tell the time: none is taken away, and those that are spared stay as they are. -/
theorem arrays_clock (avoids : session.Avoids spared) :
    (sparing session spared).Clock session (Image.Spares spared) where
  refl := Image.Spares.refl spared
  trans := Image.Spares.trans
  later := id
  enter := fun _ _ _ => .of_arrays rfl
  leave := fun _ _ => .of_arrays rfl
  serve := fun {request image} serves => by
    cases evaluation : request.evaluation? with
    | none => exact Request.spares_serve evaluation image
    | some body =>
        rw [Request.serve_of_evaluation evaluation]
        have obeys := (sparing_hosts avoids).obeys (sparing_laws avoids) serves evaluation
        exact obeys.yields.left_later

end Discipline

end MessageMachine
