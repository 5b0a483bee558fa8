import MessageMachine.Proofs.Correspondence.Hosting

/-!
# Correspondences the other way round

Which of two machines comes first matters only to what is said about the budget, and to the side on
which existence is asked for.  Where the same actions are allowed on both sides, a correspondence
can be read the other way round, and so can two machines that serve the same host.
-/

namespace MessageMachine

namespace Correspondence

/-- The same two machines in the other order. -/
def flip (C : Correspondence) : Correspondence where
  Stage := C.Stage
  first := C.second
  second := C.first
  Later := C.Later
  Fits stage frame code other := C.Fits stage frame other code
  lenient := C.lenient

/-- What a correspondence has to satisfy to be read the other way round. -/
structure Reversible (C : Correspondence) : Prop where
  formed : ∀ stage, (C.second stage).WellFormed
  extended : ∀ {stage after}, C.Later stage after → (C.second stage).Extends (C.second after)
  allowed : ∀ stage {action : Action}, action.Common →
    (action.Allowed (C.second stage) ↔ action.Allowed (C.first stage))

namespace Reversible

variable {C : Correspondence} (reversible : C.Reversible) (stage : C.Stage)
include reversible

theorem accessesField {site : FieldSiteRef} {index : Nat} :
    (C.second stage).AccessesField site index ↔ (C.first stage).AccessesField site index := by
  have common : (Action.readFieldAt site .nil index).Common := trivial
  have both := reversible.allowed stage common
  exact ⟨fun accesses => (both.mp ⟨trivial, accesses⟩).2,
    fun accesses => (both.mpr ⟨trivial, accesses⟩).2⟩

theorem sends {site : CallSiteRef} {selector : Selector} :
    (C.second stage).Sends site selector ↔ (C.first stage).Sends site selector := by
  have common : (Action.resolve site selector .nil).Common := trivial
  have both := reversible.allowed stage common
  exact ⟨fun sends => (both.mp ⟨trivial, sends⟩).2, fun sends => (both.mpr ⟨trivial, sends⟩).2⟩

theorem sendsSuper {site : CallSiteRef} {origin : ClassRef} {selector : Selector} :
    (C.second stage).SendsSuper site origin selector ↔
      (C.first stage).SendsSuper site origin selector := by
  have common : (Action.resolveSuper site origin selector).Common := trivial
  exact reversible.allowed stage common

end Reversible

variable {C : Correspondence}

theorem Reached.flip {stage after : C.Stage} {first second : Image}
    (reached : C.Reached stage first second after) : C.flip.Reached stage second first after :=
  ⟨reached.later, reached.second, reached.first⟩

theorem Paired.flip (reversible : C.Reversible) {stage : C.Stage} {frame : FrameRef}
    {code other : Code} (paired : C.Paired stage frame code other) :
    C.flip.Paired stage frame other code := by
  cases paired with
  | self same => exact .self same.symm
  | read same => exact .read same.symm
  | write same fits => exact .write same.symm fits
  | readField same accesses =>
      exact .readField same.symm ((reversible.accessesField stage).mpr accesses)
  | writeField same accesses fits =>
      exact .writeField same.symm ((reversible.accessesField stage).mpr accesses) fits
  | global same => exact .global same.symm
  | literal => exact .literal
  | block made =>
      obtain ⟨after, reached⟩ := made
      exact .block ⟨after, reached.flip⟩
  | send sends fits fit => exact .send ((reversible.sends stage).mpr sends) fits fit.flip
  | superSend same sends fit =>
      exact .superSend same.symm ((reversible.sendsSuper stage).mpr sends) fit.flip
  | control same sends fits fit =>
      exact .control same.symm ((reversible.sends stage).mpr sends) fits fit.flip
  | specialized fits fit => exact .generalized fits fit.flip
  | generalized fits fit => exact .specialized fits fit.flip
  | answer same fits => exact .answer same.symm fits

/-- A correspondence the other way round is one. -/
theorem Laws.flip (laws : C.Laws) (reversible : C.Reversible) : C.flip.Laws := by
  have known : ∀ stage {value : Value}, value.Exists (C.second stage) →
      value.Exists (C.first stage) := fun stage _ => ((laws.alike stage).exists_iff _).mp
  have allKnown : ∀ stage {values : List Value}, Value.AllExist (C.second stage) values →
      Value.AllExist (C.first stage) values :=
    fun stage _ all value member => known stage (all value member)
  exact {
    refl := laws.refl
    trans := laws.trans
    alike := fun stage => (laws.alike stage).symm
    formed := reversible.formed
    extended := reversible.extended
    carry := laws.carry
    paired := fun fits => (laws.paired fits).flip reversible
    act := fun stage action common allowed => by
      have allowed := (reversible.allowed stage common).mp allowed
      obtain ⟨after, reached⟩ := laws.act stage common allowed
      exact ⟨after, reached.flip⟩
    noted := fun stage describe => by
      obtain ⟨after, reached⟩ := laws.noted stage describe
      exact ⟨after, reached.flip⟩
    resolve := fun stage site selector receiver present sends =>
      (laws.resolve stage site selector receiver (known stage present)
        ((reversible.sends stage).mp sends)).symm
    resolveSuper := fun stage site origin selector sends =>
      (laws.resolveSuper stage site origin selector
        ((reversible.sendsSuper stage).mp sends)).symm
    enterMethod := fun stage ref routine other receiver operands first second present all => by
      obtain ⟨after, reached, fit⟩ := laws.enterMethod stage second first (known stage present)
        (allKnown stage all)
      refine ⟨after, reached.flip, ?_⟩
      rw [show (C.flip.first stage).heap.frames.next = _ from (laws.alike stage).nextFrame]
      exact fit.flip
    enterBlock := fun stage ref arguments present all => by
      have present : (C.first stage).heap.blocks.Has ref := by
        rw [Arena.Has, ← (laws.alike stage).blockCount]
        exact present
      obtain ⟨after, reached, fit⟩ := laws.enterBlock stage present (allKnown stage all)
      refine ⟨after, reached.flip, ?_⟩
      rw [show (C.flip.first stage).heap.frames.next = _ from (laws.alike stage).nextFrame]
      exact fit.flip }

namespace Hosting

/-- The same two machines in the other order, serving the same host. -/
def flip (H : Hosting) : Hosting where
  Link image other := H.Link other image
  Ready := H.Ready
  Similar routine other := H.Similar other routine
  removes := H.removes

variable {H : Hosting}

theorem Preparations.flip (alike : ∀ {image other}, H.Link image other → image.Resembles other)
    {holder : ClassRef} {selector : Selector} {result other : EStateM.Result Flaw Image Routine}
    (prepared : H.Preparations holder selector result other) :
    H.flip.Preparations holder selector other result := by
  cases prepared with
  | ok similar link known installed =>
      refine .ok similar link ?_ installed
      rw [(alike link).classes]
      exact known
  | error link => exact .error link

/-- Two machines that serve the same host do so in the other order. -/
theorem Laws.flip (laws : H.Laws C) (formed : ∀ {image other}, H.Link image other →
      other.WellFormed)
    (ready : ∀ {image other}, H.Link image other → H.Ready other → H.Ready image) :
    H.flip.Laws C.flip := by
  have classes : ∀ {image other : Image}, H.Link image other → ∀ {ref : ClassRef},
      other.classes.Has ref → image.classes.Has ref := fun link _ known => by
    rw [(laws.alike link).classes] at known
    exact known
  exact {
    alike := fun link => (laws.alike link).symm
    formed := formed
    staged := fun link prepared => by
      obtain ⟨stage, first, second⟩ := laws.staged link (ready link prepared)
      exact ⟨stage, second, first⟩
    linked := fun link later => laws.linked link later
    noted := fun link describe => laws.noted link describe
    bound := fun link name _ known =>
      laws.bound link name (((laws.alike link).exists_iff _).mp known)
    registered := fun link name _ fields classFields known =>
      laws.registered link name fields classFields (classes link known)
    installed := fun link _ selector _ known bodiless =>
      laws.installed link selector (classes link known) bodiless
    prepared := fun link _ definition known =>
      (laws.prepared link definition (classes link known)).flip laws.alike
    detached := fun link _ known => by
      refine laws.detached link ?_
      rw [Arena.Has, ← (laws.alike link).blockCount]
      exact known
    removed := fun removes _ _ link holder selector => laws.removed removes link holder selector }

end Hosting

end Correspondence

end MessageMachine
