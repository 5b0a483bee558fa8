import MessageMachine.Machine.Image

/-!
# Frames around frames

What is found by following the frames around a frame depends on nothing but where each frame stands.
-/

namespace MessageMachine

namespace Image

variable {image other : Image}

/-- Whether frames stand where they stood. -/
def SamePlaces (image other : Image) : Prop :=
  ∀ ref, (other.frameAt ref).parent = (image.frameAt ref).parent

namespace SamePlaces

theorem enclosing? (same : image.SamePlaces other) (frame : FrameRef) (depth : Nat) :
    other.enclosing? frame depth = image.enclosing? frame depth := by
  induction depth generalizing frame with
  | zero => rfl
  | succ depth inductionHypothesis =>
      simp only [Image.enclosing?, same frame]
      cases (image.frameAt frame).parent with
      | none => rfl
      | some parent => exact inductionHypothesis parent

theorem outermostWithin (same : image.SamePlaces other) (steps : Nat) (frame : FrameRef) :
    other.outermostWithin steps frame = image.outermostWithin steps frame := by
  induction steps generalizing frame with
  | zero => rfl
  | succ steps inductionHypothesis =>
      simp only [Image.outermostWithin, same frame]
      cases (image.frameAt frame).parent with
      | none => rfl
      | some parent => exact inductionHypothesis parent

theorem outermost (same : image.SamePlaces other)
    (count : other.heap.frames.size = image.heap.frames.size) (frame : FrameRef) :
    other.outermost frame = image.outermost frame := by
  unfold Image.outermost
  rw [count]
  exact same.outermostWithin _ frame

end SamePlaces

end Image

end MessageMachine
