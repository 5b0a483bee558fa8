import MessageMachine.Proofs.Persistence
import MessageMachine.Proofs.Typing

/-!
# Frames that stand in for scopes

Code is prepared within scopes and run in a frame.  The frame has the slots of the innermost scope,
the frame around it those of the next scope, and so on up to the frame of the method, whose receiver
belongs to the class that the code was prepared for.  Since a block may not have kept hold of the
frame around it, this goes only as far as the code needs anything outside.
-/

namespace MessageMachine

namespace Image

variable {image before after : Image} {holder : ClassRef} {scopes : List Scope}
  {needs fewer : Nat → Bool} {frame : FrameRef}

/-- Whether a frame has the slots of a scope. -/
structure Fills (image : Image) (frame : FrameRef) (scope : Scope) : Prop where
  known : image.heap.frames.Has frame
  slots : ∀ kind, (image.frameAt frame).slotCount kind = scope.available kind

/-- Whether a frame stands in for scopes in the code of a class, innermost first.  What is needed
outside the frame, outside the frame around it and so on decides how far this goes. -/
inductive Seats (image : Image) (holder : ClassRef) :
    List Scope → (Nat → Bool) → FrameRef → Prop
  | method {scope : Scope} {needs : Nat → Bool} {frame : FrameRef} : image.Fills frame scope →
      (image.frameAt frame).receiver.Exists image →
      image.Descends (image.classOf (image.frameAt frame).receiver) holder →
      Seats image holder [scope] needs frame
  | apart {scope : Scope} {outer : List Scope} {needs : Nat → Bool} {frame : FrameRef} :
      image.Fills frame scope → needs 0 = false → Seats image holder (scope :: outer) needs frame
  | block {scope : Scope} {outer : List Scope} {needs : Nat → Bool} {frame parent : FrameRef} :
      image.Fills frame scope → (image.frameAt frame).parent = some parent →
      (image.frameAt frame).receiver = (image.frameAt parent).receiver →
      Seats image holder outer (fun depth => needs (depth + 1)) parent →
      Seats image holder (scope :: outer) needs frame

theorem Fills.mono {scope : Scope} (fills : before.Fills frame scope)
    (retains : before.Retains after) : after.Fills frame scope where
  known := Nat.lt_of_lt_of_le fills.known retains.extended.frames
  slots := fun kind => (retains.slots frame fills.known kind).trans (fills.slots kind)

theorem Fills.addFrame {entered : Frame} {scope : Scope}
    (slots : ∀ kind, entered.slotCount kind = scope.available kind) :
    (image.addFrame entered).Fills image.heap.frames.next scope where
  known := (Arena.has_push _ _ _).mpr (Or.inr rfl)
  slots := fun kind => by
    rw [frameAt_addFrame_next]
    exact slots kind

namespace Seats

theorem known (seats : image.Seats holder scopes needs frame) : image.heap.frames.Has frame := by
  cases seats with
  | method fills _ _ => exact fills.known
  | apart fills _ => exact fills.known
  | block fills _ _ _ => exact fills.known

/-- A frame stands in for scopes from then on. -/
theorem mono (seats : before.Seats holder scopes needs frame) (retains : before.Retains after) :
    after.Seats holder scopes needs frame := by
  induction seats with
  | @method scope needs frame fills known descends =>
      have same := retains.receivers frame fills.known
      refine .method (fills.mono retains) ?_ ?_
      · rw [same]
        exact known.mono retains.extended
      · rw [same, retains.classOf known]
        exact retains.descends descends
  | apart fills unneeded => exact .apart (fills.mono retains) unneeded
  | @block scope outer needs frame parent fills around same seats inductionHypothesis =>
      refine .block (fills.mono retains) ?_ ?_ inductionHypothesis
      · rw [retains.parents frame fills.known, around]
      · rw [retains.receivers frame fills.known, retains.receivers parent seats.known, same]

/-- Less may be needed. -/
theorem weaken (seats : image.Seats holder scopes needs frame)
    (less : ∀ depth, fewer depth = true → needs depth = true) :
    image.Seats holder scopes fewer frame := by
  induction seats generalizing fewer with
  | method fills known descends => exact .method fills known descends
  | apart fills unneeded =>
      refine .apart fills (Bool.not_eq_true _ ▸ fun needed => ?_)
      cases unneeded.symm.trans (less 0 needed)
  | block fills around same _ inductionHypothesis =>
      exact .block fills around same (inductionHypothesis fun depth => less (depth + 1))

/-- The frame for a scope is found by going outwards, if it is needed. -/
theorem enclosing? (seats : image.Seats holder scopes needs frame) {depth : Nat} {scope : Scope}
    (found : scopes[depth]? = some scope) (needed : ∀ level < depth, needs level = true) :
    ∃ home, image.enclosing? frame depth = some home ∧ image.Fills home scope := by
  induction seats generalizing depth with
  | @method own needs frame fills _ _ =>
      cases depth with
      | zero =>
          cases found
          exact ⟨frame, rfl, fills⟩
      | succ depth => cases found
  | @apart own outer needs frame fills unneeded =>
      cases depth with
      | zero =>
          cases found
          exact ⟨frame, rfl, fills⟩
      | succ depth => cases unneeded.symm.trans (needed 0 (Nat.succ_pos depth))
  | @block own outer needs frame parent fills around _ _ inductionHypothesis =>
      cases depth with
      | zero =>
          cases found
          exact ⟨frame, rfl, fills⟩
      | succ depth =>
          simp only [Image.enclosing?, around]
          exact inductionHypothesis found fun level inside =>
            needed (level + 1) (Nat.succ_lt_succ inside)

/-- A slot of the scopes is found, if it is needed. -/
theorem slotHome? (seats : image.Seats holder scopes needs frame) {slot : Slot}
    (inside : slot.InScopes scopes) (needed : ∀ level < slot.depth, needs level = true) :
    ∃ home, image.slotHome? frame slot = some home := by
  obtain ⟨scope, found, available⟩ := inside
  obtain ⟨home, encloses, fills⟩ := seats.enclosing? found needed
  refine ⟨home, ?_⟩
  simp only [Image.slotHome?, encloses, fills.slots, available, if_true]

/-- Where everything outside is needed, the receiver is of the class that the code is for. -/
theorem receiver (seats : image.Seats holder scopes needs frame)
    (needed : ∀ level, needs level = true) :
    (image.frameAt frame).receiver.Exists image ∧
      image.Descends (image.classOf (image.frameAt frame).receiver) holder := by
  induction seats with
  | method _ known descends => exact ⟨known, descends⟩
  | apart _ unneeded => cases unneeded.symm.trans (needed 0)
  | block _ _ same _ inductionHypothesis =>
      rw [same]
      exact inductionHypothesis fun level => needed (level + 1)

/-- The frame of a method stands in for the slots of the method. -/
theorem addMethodFrame {receiver : Value} (known : receiver.Exists image)
    (descends : image.Descends (image.classOf receiver) holder) (ref : MethodRef)
    (operands : List Value) (temporaries : Nat) :
    (image.addFrame (.ofMethod ref receiver operands temporaries)).Seats holder
      [{ parameters := operands.length, temporaries }] needs image.heap.frames.next := by
  have retains := Retains.addFrame image (.ofMethod ref receiver operands temporaries)
  have same : ((image.addFrame (.ofMethod ref receiver operands temporaries)).frameAt
      image.heap.frames.next).receiver = receiver := by
    rw [frameAt_addFrame_next]
    rfl
  refine .method (.addFrame fun kind => ?_) ?_ ?_
  · cases kind <;> simp [Frame.slotCount, Frame.ofMethod, Scope.available]
  · rw [same]
    exact known.mono retains.extended
  · rw [same, retains.classOf known]
    exact retains.descends descends

end Seats

/-- What a slot holds. -/
theorem slot?_of_slotHome? {slot : Slot} {home : FrameRef}
    (found : image.slotHome? frame slot = some home) :
    ∃ value, image.slot? frame slot = some value := by
  unfold Image.slotHome? at found
  unfold Image.slot?
  cases encloses : image.enclosing? frame slot.depth with
  | none =>
      rw [encloses] at found
      cases found
  | some other =>
      rw [encloses] at found
      dsimp only at found ⊢
      split at found
      · next inside =>
          cases kind : slot.kind with
          | argument =>
              rw [kind] at inside
              exact ⟨_, Array.getElem?_eq_getElem inside⟩
          | temporary =>
              rw [kind] at inside
              exact ⟨_, Array.getElem?_eq_getElem inside⟩
      · cases found

/-- Whether the body of a block suits the scopes that it was written in, and the block has kept hold
of a frame that stands in for them, if it needs one. -/
inductive Furnishes (image : Image) (closure : Closure) : Prop
  | intro {holder : ClassRef} {scopes : List Scope} : image.classes.Has holder →
      closure.parameters ≤ blockParameterLimit →
      (∀ code ∈ closure.body, code.Suits (image.classAt holder).fields.length
        (image.classAt holder).superclass
        ({ parameters := closure.parameters, temporaries := closure.temporaries } :: scopes)) →
      (Code.anyReachOut 0 closure.body = true → ∃ parent, closure.captured = some parent ∧
        image.Seats holder scopes (fun depth => Code.anyReachOut (depth + 1) closure.body) parent) →
      Furnishes image closure

theorem Furnishes.mono {closure : Closure} (furnishes : before.Furnishes closure)
    (retains : before.Retains after) : after.Furnishes closure := by
  cases furnishes with
  | @intro holder scopes known few suits seats =>
      rw [← retains.fieldNames known, ← retains.superclass known] at suits
      refine .intro (Nat.lt_of_lt_of_le known retains.extended.classes) few suits fun needed => ?_
      obtain ⟨parent, captured, seated⟩ := seats needed
      exact ⟨parent, captured, seated.mono retains⟩

/-- The frame of a block stands in for the scopes that the block was written in. -/
theorem Furnishes.addBlockFrame {ref : BlockRef} (furnishes : image.Furnishes (image.blockAt ref))
    {arguments : List Value} (count : arguments.length = (image.blockAt ref).parameters) :
    ∃ holder scopes, image.classes.Has holder ∧
      (∀ code ∈ (image.blockAt ref).body, code.Suits (image.classAt holder).fields.length
        (image.classAt holder).superclass scopes) ∧
      (image.addFrame (image.blockFrame ref arguments)).Seats holder scopes
        (fun depth => Code.anyReachOut depth (image.blockAt ref).body) image.heap.frames.next := by
  cases furnishes with
  | @intro holder scopes known _ suits seats =>
      have retains := Retains.addFrame image (image.blockFrame ref arguments)
      have entered := image.frameAt_addFrame_next (image.blockFrame ref arguments)
      refine ⟨holder, _, known, suits, ?_⟩
      have fills : (image.addFrame (image.blockFrame ref arguments)).Fills image.heap.frames.next
          { parameters := (image.blockAt ref).parameters,
            temporaries := (image.blockAt ref).temporaries } := .addFrame fun kind => by
        cases kind <;> simp [Frame.slotCount, blockFrame, Frame.ofBlock, Scope.available, count]
      cases needed : Code.anyReachOut 0 (image.blockAt ref).body with
      | false => exact .apart fills needed
      | true =>
          obtain ⟨parent, captured, seated⟩ := seats needed
          refine .block fills ?_ ?_ (seated.mono retains)
          · rw [entered]
            exact captured
          · rw [entered, retains.receivers parent seated.known]
            simp only [blockFrame, Frame.ofBlock, captured]

end Image

end MessageMachine
