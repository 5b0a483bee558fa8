import MessageMachine.Proofs.Reach
import MessageMachine.Proofs.Session

/-!
# Blocks that keep hold of nothing

A block that needs nothing outside itself is made without the activation around it.  To see that
this changes nothing, a session is compared with the same session in which every block keeps hold of
the activation it is made in.  The two images then differ in the frames around the frames of some
blocks.  What they have in common is how far the frames around a frame are the same, in terms of
which the code that runs in a frame is given what it needs.
-/

namespace MessageMachine

namespace Image

/-- What frames keep for good: the frame around them and the receiver. -/
structure KeepsPlaces (before after : Image) : Prop where
  count : before.heap.frames.size ≤ after.heap.frames.size
  parents : ∀ frame, before.heap.frames.Has frame →
    (after.frameAt frame).parent = (before.frameAt frame).parent
  receivers : ∀ frame, before.heap.frames.Has frame →
    (after.frameAt frame).receiver = (before.frameAt frame).receiver

namespace KeepsPlaces

variable {before between after : Image}

theorem refl (image : Image) : image.KeepsPlaces image where
  count := Nat.le_refl _
  parents := fun _ _ => rfl
  receivers := fun _ _ => rfl

theorem trans (first : before.KeepsPlaces between) (second : between.KeepsPlaces after) :
    before.KeepsPlaces after where
  count := Nat.le_trans first.count second.count
  parents := fun frame old => by
    rw [second.parents frame (Nat.lt_of_lt_of_le old first.count), first.parents frame old]
  receivers := fun frame old => by
    rw [second.receivers frame (Nat.lt_of_lt_of_le old first.count), first.receivers frame old]

theorem of_frames (same : after.heap.frames = before.heap.frames) :
    before.KeepsPlaces after where
  count := Nat.le_of_eq (congrArg Arena.size same).symm
  parents := fun frame _ => by rw [frameAt, same, ← frameAt]
  receivers := fun frame _ => by rw [frameAt, same, ← frameAt]

theorem of_scaffold (same : before.SameScaffold after) : before.KeepsPlaces after where
  count := Nat.le_of_eq same.frameCount.symm
  parents := fun frame _ => same.parents frame
  receivers := fun frame _ => same.receivers frame

theorem addFrame (image : Image) (frame : Frame) : image.KeepsPlaces (image.addFrame frame) where
  count := by simp [Image.addFrame]
  parents := fun _ old => by rw [frameAt, Image.addFrame, Arena.get_push_of_has _ old, ← frameAt]
  receivers := fun _ old => by rw [frameAt, Image.addFrame, Arena.get_push_of_has _ old, ← frameAt]

end KeepsPlaces

/-- Whether the frames around a frame, up to a number of levels, are the same in two images. -/
def SharesLevels (image other : Image) : Nat → FrameRef → Prop
  | 0, frame => image.heap.frames.Has frame
  | levels + 1, frame => image.heap.frames.Has frame ∧
      (other.frameAt frame).parent = (image.frameAt frame).parent ∧
      ∀ parent, (image.frameAt frame).parent = some parent →
        image.SharesLevels other levels parent

/-- Whether all frames around a frame and its receiver are the same in two images. -/
structure SharesFrame (image other : Image) (frame : FrameRef) : Prop where
  levels : ∀ levels, image.SharesLevels other levels frame
  receiver : (other.frameAt frame).receiver = (image.frameAt frame).receiver

/-- Whether two images share of the surroundings of a frame what code needs that runs in it.  The
code is given by whether it reaches out of each number of levels. -/
def Suffices (image other : Image) (frame : FrameRef) (reaches : Nat → Bool) : Prop :=
  image.SharesFrame other frame ∨
    ∃ levels, image.SharesLevels other levels frame ∧ reaches levels = false

variable {image other after afterToo : Image}

namespace SharesLevels

theorem has {levels : Nat} {frame : FrameRef} (shared : image.SharesLevels other levels frame) :
    image.heap.frames.Has frame := by
  cases levels with
  | zero => exact shared
  | succ levels => exact shared.1

theorem mono (count : other.heap.frames.size = image.heap.frames.size)
    (kept : image.KeepsPlaces after) (keptToo : other.KeepsPlaces afterToo) {levels : Nat}
    {frame : FrameRef} (shared : image.SharesLevels other levels frame) :
    after.SharesLevels afterToo levels frame := by
  induction levels generalizing frame with
  | zero => exact Nat.lt_of_lt_of_le shared kept.count
  | succ levels inductionHypothesis =>
      obtain ⟨old, same, outer⟩ := shared
      have oldToo : other.heap.frames.Has frame := by
        rw [Arena.Has, count]
        exact old
      refine ⟨Nat.lt_of_lt_of_le old kept.count, ?_, ?_⟩
      · rw [kept.parents frame old, keptToo.parents frame oldToo, same]
      · intro parent found
        rw [kept.parents frame old] at found
        exact inductionHypothesis (outer parent found)

/-- As far as the frames around a frame are shared, the way out is the same. -/
theorem enclosing? {levels : Nat} {frame : FrameRef}
    (shared : image.SharesLevels other levels frame) {depth : Nat} (inside : depth ≤ levels) :
    other.enclosing? frame depth = image.enclosing? frame depth := by
  induction depth generalizing levels frame with
  | zero => rfl
  | succ depth inductionHypothesis =>
      cases levels with
      | zero => omega
      | succ levels =>
          obtain ⟨-, same, outer⟩ := shared
          simp only [Image.enclosing?, same]
          cases found : (image.frameAt frame).parent with
          | none => rfl
          | some parent => exact inductionHypothesis (outer parent found) (by omega)

/-- The outermost frame is found by following the frames around a frame. -/
theorem outermostWithin {frame : FrameRef} (steps : Nat)
    (shared : image.SharesLevels other steps frame) :
    other.outermostWithin steps frame = image.outermostWithin steps frame := by
  induction steps generalizing frame with
  | zero => rfl
  | succ steps inductionHypothesis =>
      obtain ⟨-, same, outer⟩ := shared
      simp only [Image.outermostWithin, same]
      cases found : (image.frameAt frame).parent with
      | none => rfl
      | some parent => exact inductionHypothesis (outer parent found)

/-- A new frame shares one level more than the frame around it. -/
theorem addFrame (alike : image.Resembles other) {frame frameToo : Frame}
    (same : frameToo.parent = frame.parent) {levels : Nat}
    (outer : ∀ parent, frame.parent = some parent → image.SharesLevels other levels parent) :
    (image.addFrame frame).SharesLevels (other.addFrame frameToo) (levels + 1)
      image.heap.frames.next := by
  have found := image.frameAt_addFrame_next frame
  have foundToo := alike.frameAt_addFrame_next frameToo
  refine ⟨?_, ?_, ?_⟩
  · exact (Arena.has_push _ _ _).mpr (Or.inr rfl)
  · rw [found, foundToo, same]
  · rw [found]
    intro parent enclosing
    exact (outer parent enclosing).mono alike.frameCount (.addFrame image frame)
      (.addFrame other frameToo)

end SharesLevels

namespace SharesFrame

variable {frame : FrameRef}

theorem mono (count : other.heap.frames.size = image.heap.frames.size)
    (kept : image.KeepsPlaces after) (keptToo : other.KeepsPlaces afterToo)
    (shared : image.SharesFrame other frame) : after.SharesFrame afterToo frame where
  levels := fun levels => (shared.levels levels).mono count kept keptToo
  receiver := by
    have old := (shared.levels 0).has
    have oldToo : other.heap.frames.Has frame := by
      rw [Arena.Has, count]
      exact old
    rw [kept.receivers frame old, keptToo.receivers frame oldToo, shared.receiver]

/-- A new frame is shared with everything around it if it has the same receiver in both images and
the frame around it is shared. -/
theorem addFrame (alike : image.Resembles other) {frame frameToo : Frame}
    (same : frameToo.parent = frame.parent) (receiver : frameToo.receiver = frame.receiver)
    (outer : ∀ parent, frame.parent = some parent → image.SharesFrame other parent) :
    (image.addFrame frame).SharesFrame (other.addFrame frameToo) image.heap.frames.next where
  levels := fun levels => by
    cases levels with
    | zero => exact (Arena.has_push _ _ _).mpr (Or.inr rfl)
    | succ levels =>
        exact .addFrame alike same fun parent found => (outer parent found).levels levels
  receiver := by
    rw [image.frameAt_addFrame_next, alike.frameAt_addFrame_next, receiver]

end SharesFrame

namespace Suffices

variable {frame : FrameRef} {reaches fewer : Nat → Bool}

theorem mono (count : other.heap.frames.size = image.heap.frames.size)
    (kept : image.KeepsPlaces after) (keptToo : other.KeepsPlaces afterToo)
    (enough : image.Suffices other frame reaches) : after.Suffices afterToo frame reaches := by
  rcases enough with shared | ⟨levels, shared, inside⟩
  · exact Or.inl (shared.mono count kept keptToo)
  · exact Or.inr ⟨levels, shared.mono count kept keptToo, inside⟩

/-- What suffices for an expression suffices for its parts. -/
theorem weaken (enough : image.Suffices other frame reaches)
    (part : ∀ levels, reaches levels = false → fewer levels = false) :
    image.Suffices other frame fewer := by
  rcases enough with shared | ⟨levels, shared, inside⟩
  · exact Or.inl shared
  · exact Or.inr ⟨levels, shared, part levels inside⟩

/-- Code that reaches out in any case has all its surroundings. -/
theorem shared (enough : image.Suffices other frame reaches)
    (always : ∀ levels, reaches levels = true) : image.SharesFrame other frame := by
  rcases enough with shared | ⟨levels, -, inside⟩
  · exact shared
  · rw [always levels] at inside
    cases inside

/-- Slots that code refers to are found in the same frames. -/
theorem enclosing? (enough : image.Suffices other frame reaches) {depth : Nat}
    (referred : ∀ levels, reaches levels = false → depth ≤ levels) :
    other.enclosing? frame depth = image.enclosing? frame depth := by
  rcases enough with shared | ⟨levels, shared, inside⟩
  · exact (shared.levels depth).enclosing? (Nat.le_refl depth)
  · exact shared.enclosing? (referred levels inside)

end Suffices

/-- Two blocks with the same body, of which the first one may keep hold of nothing if its body needs
nothing.  Otherwise they keep hold of the same frame, which has what the body needs. -/
structure SharesBlock (image other : Image) (closure closureToo : Closure) : Prop where
  raised : List.Forall₂ Code.Raised closure.body closureToo.body
  held : (closure.captured = none ∧ Code.anyReachOut 0 closure.body = false) ∨
    (closureToo.captured = closure.captured ∧ ∀ frame, closure.captured = some frame →
      image.Suffices other frame fun levels => Code.anyReachOut (levels + 1) closure.body)

theorem SharesBlock.mono {closure closureToo : Closure}
    (shared : image.SharesBlock other closure closureToo)
    (count : other.heap.frames.size = image.heap.frames.size)
    (kept : image.KeepsPlaces after) (keptToo : other.KeepsPlaces afterToo) :
    after.SharesBlock afterToo closure closureToo where
  raised := shared.raised
  held := by
    rcases shared.held with elided | ⟨same, enough⟩
    · exact Or.inl elided
    · exact Or.inr ⟨same, fun frame found => (enough frame found).mono count kept keptToo⟩

/-- Whether two images differ in nothing but what blocks keep hold of, with the blocks of the first
one keeping hold of what they need. -/
structure HoldsLess (image other : Image) : Prop where
  alike : image.Resembles other
  formed : image.WellFormed
  settings : other.settings = image.settings
  sites : other.sites = image.sites
  methods : ∀ ref, List.Forall₂ Code.Raised (image.methodAt ref).body (other.methodAt ref).body
  blocks : ∀ ref, image.heap.blocks.Has ref →
    image.SharesBlock other (image.blockAt ref) (other.blockAt ref)

namespace HoldsLess

/-- Steps that change neither methods nor blocks. -/
theorem step (held : image.HoldsLess other) (alike : after.Resembles afterToo)
    (formed : after.WellFormed) (settings : after.settings = image.settings)
    (settingsToo : afterToo.settings = other.settings) (sites : afterToo.sites = after.sites)
    (methods : after.methods = image.methods) (methodsToo : afterToo.methods = other.methods)
    (blocks : after.heap.blocks = image.heap.blocks)
    (blocksToo : afterToo.heap.blocks = other.heap.blocks) (kept : image.KeepsPlaces after)
    (keptToo : other.KeepsPlaces afterToo) : after.HoldsLess afterToo where
  alike := alike
  formed := formed
  settings := by rw [settings, settingsToo, held.settings]
  sites := sites
  methods := fun ref => by
    rw [methodAt, methodAt, methods, methodsToo]
    exact held.methods ref
  blocks := fun ref old => by
    rw [blockAt, blockAt, blocks, blocksToo]
    rw [blocks] at old
    exact (held.blocks ref old).mono held.alike.frameCount kept keptToo

theorem sites_note (image : Image) (describe : Image → Event) :
    (image.note describe).sites = image.sites := by
  rw [note_eq]

/-- A lookup at a site finds the same on both sides, and the sites go on remembering the same. -/
theorem lookupAt (held : image.HoldsLess other) (site : CallSiteRef) (selector : Selector)
    (receiver : Value) :
    (other.lookupAt site selector receiver).1 = (image.lookupAt site selector receiver).1 ∧
      (other.lookupAt site selector receiver).2.sites =
        (image.lookupAt site selector receiver).2.sites := by
  have alike := held.alike
  unfold Image.lookupAt
  simp only [held.sites, held.settings, alike.guardOf, alike.lookupFor]
  cases (image.sites.calls.get site).target? (image.guardOf receiver) image.sites.version with
  | some target => exact ⟨rfl, held.sites⟩
  | none =>
      cases image.lookupFor receiver selector with
      | none => exact ⟨rfl, held.sites⟩
      | some target =>
          refine ⟨rfl, ?_⟩
          simp only [sites_note, setCallSite, held.sites]

theorem lookupSuperAt (held : image.HoldsLess other) (site : CallSiteRef) (origin : ClassRef)
    (selector : Selector) :
    (other.lookupSuperAt site origin selector).1 = (image.lookupSuperAt site origin selector).1 ∧
      (other.lookupSuperAt site origin selector).2.sites =
        (image.lookupSuperAt site origin selector).2.sites := by
  have alike := held.alike
  unfold Image.lookupSuperAt
  simp only [held.sites, alike.lookup]
  split
  · exact ⟨rfl, held.sites⟩
  · cases image.lookup origin selector with
    | none => exact ⟨rfl, held.sites⟩
    | some target => simp only [setCallSite, held.sites, and_self]

/-- Accesses to fields leave the sites alike. -/
theorem sites_of_tended {good goodToo : Value → Prop} (held : image.HoldsLess other)
    (alike : after.Resembles afterToo) (tended : Tended good image after)
    (tendedToo : Tended goodToo other afterToo) : afterToo.sites = after.sites := by
  have calls : afterToo.sites.calls = after.sites.calls := by
    rw [tendedToo.calls, tended.calls, held.sites]
  have controls : afterToo.sites.controls = after.sites.controls := by
    rw [tendedToo.controls, tended.controls, held.sites]
  have fields := alike.fields
  have version := alike.version
  generalize afterToo.sites = sitesToo at *
  generalize after.sites = sites at *
  cases sitesToo
  cases sites
  simp only at calls controls fields version
  rw [calls, controls, fields, version]

/-- Actions that are taken in step leave the sites alike. -/
theorem sites_perform (held : image.HoldsLess other) {action : Action} (common : action.Common)
    (alike : (action.perform image).Resembles (action.perform other)) :
    (action.perform other).sites = (action.perform image).sites := by
  have anything : ∀ value : Value, value.IsPlain → value.IsNormal → True :=
    fun _ _ _ => trivial
  cases action with
  | readField receiver index =>
      exact held.sites_of_tended alike (readField_tended anything image receiver index)
        (readField_tended anything other receiver index)
  | writeField receiver index value =>
      exact held.sites_of_tended alike (writeField_tended anything image receiver index trivial)
        (writeField_tended anything other receiver index trivial)
  | readFieldAt site receiver index =>
      exact held.sites_of_tended alike (readFieldAt_tended anything image site receiver index)
        (readFieldAt_tended anything other site receiver index)
  | writeFieldAt site receiver index value =>
      exact held.sites_of_tended alike
        (writeFieldAt_tended anything image site receiver index trivial)
        (writeFieldAt_tended anything other site receiver index trivial)
  | resolve site selector receiver => exact (held.lookupAt site selector receiver).2
  | resolveSuper site origin selector => exact (held.lookupSuperAt site origin selector).2
  | settle site => simp only [Action.perform, generalizeControl, held.sites]
  | meet names => exact held.sites
  | draw bound => exact held.sites
  | makeArray elements => exact held.sites
  | setElement ref place value => exact held.sites
  | instantiate owner => exact held.sites
  | setSlot frame kind index value => exact held.sites
  | leave frame => exact held.sites
  | _ => exact common.elim

theorem perform (held : image.HoldsLess other) {action : Action} (common : action.Common)
    (allowed : action.Allowed image) :
    (action.perform image).HoldsLess (action.perform other) := by
  have alike := held.alike.perform common allowed
  have same : image.SameScaffold (action.perform image) := common.sameScaffold
  have sameToo : other.SameScaffold (action.perform other) := common.sameScaffold
  exact held.step alike (Action.wellFormed_perform held.formed allowed) same.settings
    sameToo.settings (held.sites_perform common alike) same.methods sameToo.methods same.blocks
    sameToo.blocks (.of_scaffold same) (.of_scaffold sameToo)

theorem note (held : image.HoldsLess other) (describe : Image → Event) :
    (image.note describe).HoldsLess (other.note describe) := by
  have alike := held.alike.note describe describe
  have formed := Action.wellFormed_perform held.formed
    (show (Action.noteDown (image.note describe).journal).Allowed image from trivial)
  rw [← note_eq_perform] at formed
  rw [note_eq image, note_eq other] at *
  exact held.step alike formed rfl rfl held.sites rfl rfl rfl rfl (.of_frames rfl)
    (.of_frames rfl)

theorem addFrame (held : image.HoldsLess other) {frame frameToo : Frame}
    (same : frame.Resembles frameToo) (known : frame.All (·.Exists image)) :
    (image.addFrame frame).HoldsLess (other.addFrame frameToo) :=
  held.step (held.alike.addFrame same)
    (Action.wellFormed_perform held.formed (show (Action.enter frame).Allowed image from known))
    rfl rfl held.sites rfl rfl rfl rfl (.addFrame image frame) (.addFrame other frameToo)

theorem addBlock (held : image.HoldsLess other) {closure closureToo : Closure}
    (shared : image.SharesBlock other closure closureToo)
    (parameters : closureToo.parameters = closure.parameters)
    (temporaries : closureToo.temporaries = closure.temporaries)
    (provided : image.Provides closure.body) :
    (image.addBlock closure).HoldsLess (other.addBlock closureToo) where
  alike := held.alike.addBlock parameters temporaries
  formed := Action.wellFormed_perform held.formed
    (show (Action.makeBlock closure).Allowed image from provided)
  settings := held.settings
  sites := held.sites
  methods := held.methods
  blocks := fun ref known => by
    have kept : image.KeepsPlaces (image.addBlock closure) := .of_frames rfl
    have keptToo : other.KeepsPlaces (other.addBlock closureToo) := .of_frames rfl
    simp only [Image.addBlock, blockAt, Arena.get_push, held.alike.nextBlock]
    rcases (Arena.has_push _ _ _).mp known with old | rfl
    · rw [if_neg old.ne_next, if_neg old.ne_next]
      exact (held.blocks ref old).mono held.alike.frameCount kept keptToo
    · rw [if_pos rfl, if_pos rfl]
      exact shared.mono held.alike.frameCount kept keptToo

end HoldsLess

end Image

namespace Correspondence

/-- Two machines whose images differ in what blocks keep hold of. -/
def elision : Correspondence where
  Stage := { images : Image × Image // images.1.HoldsLess images.2 }
  first stage := stage.val.1
  second stage := stage.val.2
  Later stage after := stage.val.1.Extends after.val.1 ∧ stage.val.1.KeepsPlaces after.val.1 ∧
    stage.val.2.KeepsPlaces after.val.2
  Fits stage frame code other := code.Raised other ∧
    (∀ node ∈ code.outline, stage.val.1.Outlines node) ∧
    stage.val.1.Suffices stage.val.2 frame fun levels => code.reachesOut levels
  lenient := False

namespace Elision

variable {stage : elision.Stage} {frame : FrameRef}

/-- Two steps that keep the images side by side. -/
theorem reached (stage : elision.Stage) {first second : Image} (held : first.HoldsLess second)
    (extended : stage.val.1.Extends first) (kept : stage.val.1.KeepsPlaces first)
    (keptToo : stage.val.2.KeepsPlaces second) :
    ∃ after, elision.Reached stage first second after :=
  ⟨⟨(first, second), held⟩, ⟨extended, kept, keptToo⟩, rfl, rfl⟩

/-- Expressions fit if each of them does. -/
theorem fitAll {codes others : List Code} (raised : List.Forall₂ Code.Raised codes others)
    (provided : ∀ node ∈ Code.outlineAll codes, stage.val.1.Outlines node)
    (enough : stage.val.1.Suffices stage.val.2 frame fun levels => Code.anyReachOut levels codes) :
    List.Forall₂ (elision.Fits stage frame) codes others := by
  induction raised with
  | nil => exact .nil
  | cons inner _ inductionHypothesis =>
      simp only [Code.anyReachOut] at enough
      refine .cons ⟨inner, fun node found => ?_, ?_⟩ (inductionHypothesis (fun node found => ?_) ?_)
      · exact provided node (List.mem_append_left _ found)
      · exact enough.weaken fun _ none => (Bool.or_eq_false_iff.mp none).1
      · exact provided node (List.mem_append_right _ found)
      · exact enough.weaken fun _ none => (Bool.or_eq_false_iff.mp none).2

theorem slot?_eq {slot : Slot} (same : stage.val.2.enclosing? frame slot.depth =
    stage.val.1.enclosing? frame slot.depth) :
    stage.val.2.slot? frame slot = stage.val.1.slot? frame slot := by
  unfold Image.slot?
  rw [same]
  cases stage.val.1.enclosing? frame slot.depth with
  | none => rfl
  | some home => exact (stage.property.alike.frames home).slot? slot.kind slot.index

theorem slotHome?_eq {slot : Slot} (same : stage.val.2.enclosing? frame slot.depth =
    stage.val.1.enclosing? frame slot.depth) :
    stage.val.2.slotHome? frame slot = stage.val.1.slotHome? frame slot := by
  unfold Image.slotHome?
  rw [same]
  cases stage.val.1.enclosing? frame slot.depth with
  | none => rfl
  | some home => simp only [(stage.property.alike.frames home).slotCount]

theorem outermost_eq (shared : stage.val.1.SharesFrame stage.val.2 frame) :
    stage.val.2.outermost frame = stage.val.1.outermost frame := by
  unfold Image.outermost
  rw [stage.property.alike.frameCount]
  exact Image.SharesLevels.outermostWithin _ (shared.levels _)

/-- A block is made on both sides, whether it keeps hold of the frame or not. -/
theorem makeBlock {parameters temporaries : Nat} {captures capturesToo : Bool}
    {body other : List Code} (more : captures = true → capturesToo = true)
    (needless : captures = false → Code.anyReachOut 0 body = false)
    (raised : List.Forall₂ Code.Raised body other)
    (provided : ∀ node ∈ Code.outlineAll body, stage.val.1.Outlines node)
    (enough : stage.val.1.Suffices stage.val.2 frame
      fun levels => Code.anyReachOut (levels + 1) body) :
    ∃ after, elision.Reached stage
      (stage.val.1.addBlock
        { captured := if captures then some frame else none, parameters, temporaries, body })
      (stage.val.2.addBlock
        { captured := if capturesToo then some frame else none, parameters, temporaries,
          body := other }) after := by
  refine reached stage (stage.property.addBlock ⟨raised, ?_⟩ rfl rfl provided)
    (@Action.extends_perform stage.val.1 (.makeBlock _) provided) (.of_frames rfl) (.of_frames rfl)
  cases captures with
  | false => exact Or.inl ⟨rfl, needless rfl⟩
  | true =>
      rw [more rfl]
      refine Or.inr ⟨rfl, fun home found => ?_⟩
      cases found
      exact enough

theorem paired {code other : Code} (fits : elision.Fits stage frame code other) :
    elision.Paired stage frame code other := by
  obtain ⟨raised, provided, enough⟩ := fits
  -- Each expression that reaches out in any case has its receiver and its home.
  have whole : (∀ levels, code.reachesOut levels = true) →
      stage.val.1.SharesFrame stage.val.2 frame := enough.shared
  cases raised with
  | self => exact .self (whole fun _ => rfl).receiver
  | global => exact .global (whole fun _ => rfl).receiver
  | literal => exact .literal
  | read =>
      refine .read (slot?_eq (enough.enclosing? fun levels none => ?_))
      exact Nat.not_lt.mp (of_decide_eq_false none)
  | write inner =>
      simp only [Code.reachesOut] at enough
      refine .write (slotHome?_eq (enough.enclosing? fun levels none => ?_))
        ⟨inner, provided, enough.weaken fun _ none => (Bool.or_eq_false_iff.mp none).2⟩
      exact Nat.not_lt.mp (of_decide_eq_false (Bool.or_eq_false_iff.mp none).1)
  | readField =>
      exact .readField (whole fun _ => rfl).receiver (Or.inl (provided _ List.mem_cons_self))
  | writeField inner =>
      have shared := whole fun _ => rfl
      exact .writeField shared.receiver (Or.inr (provided _ List.mem_cons_self))
        ⟨inner, fun node found => provided node (List.mem_cons_of_mem _ found), Or.inl shared⟩
  | block more needless inner =>
      exact .block (makeBlock more needless inner
        (fun node found => provided node (List.mem_cons_of_mem _ found)) enough)
  | send inner inners =>
      simp only [Code.reachesOut] at enough
      refine .send (Or.inl (provided _ List.mem_cons_self)) ⟨inner, fun node found => ?_, ?_⟩
        (fitAll inners (fun node found => ?_) ?_)
      · exact provided node (List.mem_cons_of_mem _ (List.mem_append_left _ found))
      · exact enough.weaken fun _ none => (Bool.or_eq_false_iff.mp none).1
      · exact provided node (List.mem_cons_of_mem _ (List.mem_append_right _ found))
      · exact enough.weaken fun _ none => (Bool.or_eq_false_iff.mp none).2
  | superSend inners =>
      have shared := whole fun _ => rfl
      exact .superSend shared.receiver (provided _ List.mem_cons_self)
        (fitAll inners (fun node found => provided node (List.mem_cons_of_mem _ found))
          (Or.inl shared))
  | control inner inners =>
      simp only [Code.reachesOut] at enough
      refine .control (by rw [show elision.second stage = stage.val.2 from rfl,
          stage.property.sites]; rfl) (Or.inr ⟨_, _, provided _ List.mem_cons_self⟩)
        ⟨inner, fun node found => ?_, ?_⟩ (fitAll inners (fun node found => ?_) ?_)
      · exact provided node (List.mem_cons_of_mem _ (List.mem_append_left _ found))
      · exact enough.weaken fun _ none => (Bool.or_eq_false_iff.mp none).1
      · exact provided node (List.mem_cons_of_mem _ (List.mem_append_right _ found))
      · exact enough.weaken fun _ none => (Bool.or_eq_false_iff.mp none).2
  | answer inner =>
      have shared := whole fun _ => rfl
      exact .answer (outermost_eq shared) ⟨inner, provided, Or.inl shared⟩

/-- The frame of a method is the same on both sides, with nothing around it. -/
theorem enterMethod (stage : elision.Stage) {ref : MethodRef} {routine other : Routine}
    {receiver : Value} {operands : List Value}
    (first : (stage.val.1.methodAt ref).behavior = .defined routine)
    (second : (stage.val.2.methodAt ref).behavior = .defined other)
    (known : receiver.Exists stage.val.1) (allKnown : Value.AllExist stage.val.1 operands) :
    ∃ after, elision.Reached stage
      (stage.val.1.addFrame (.ofMethod ref receiver operands routine.temporaries))
      (stage.val.2.addFrame (.ofMethod ref receiver operands other.temporaries)) after ∧
      List.Forall₂ (elision.Fits after stage.val.1.heap.frames.next) routine.body other.body := by
  have held := stage.property
  have raised := held.methods ref
  have temporaries : other.temporaries = routine.temporaries := by
    have behaviors := (held.alike.methods ref).behavior
    rw [first, second] at behaviors
    cases behaviors with
    | defined _ temporaries => exact temporaries
  have present : ∀ node ∈ Code.outlineAll routine.body, stage.val.1.Outlines node :=
    fun node found => ⟨ref, by simpa only [Method.body, first] using found⟩
  simp only [Method.body, first, second] at raised
  rw [temporaries]
  have frameKnown : (Frame.ofMethod ref receiver operands routine.temporaries).All
      (·.Exists stage.val.1) := Frame.all_ofMethod trivial ref known allKnown routine.temporaries
  obtain ⟨after, taken⟩ := reached stage (held.addFrame ⟨rfl, rfl, rfl, rfl⟩ frameKnown)
    (@Action.extends_perform stage.val.1 (.enter _) frameKnown) (.addFrame _ _) (.addFrame _ _)
  refine ⟨after, taken, fitAll raised (fun node found => (present node found).mono taken.later.1)
    (Or.inl ?_)⟩
  rw [show after.val.1 = _ from taken.first, show after.val.2 = _ from taken.second]
  exact .addFrame held.alike rfl rfl fun _ found => by cases found

/-- The frame of a block has what the body of the block needs. -/
theorem enterBlock (stage : elision.Stage) {ref : BlockRef} {arguments : List Value}
    (known : stage.val.1.heap.blocks.Has ref) (allKnown : Value.AllExist stage.val.1 arguments) :
    ∃ after, elision.Reached stage
      (stage.val.1.addFrame (stage.val.1.blockFrame ref arguments))
      (stage.val.2.addFrame (stage.val.2.blockFrame ref arguments)) after ∧
      List.Forall₂ (elision.Fits after stage.val.1.heap.frames.next)
        (stage.val.1.blockAt ref).body (stage.val.2.blockAt ref).body := by
  have held := stage.property
  obtain ⟨raised, blocks⟩ := held.blocks ref known
  have same : (stage.val.1.blockFrame ref arguments).Resembles
      (stage.val.2.blockFrame ref arguments) :=
    ⟨rfl, rfl, by simp only [Image.blockFrame, Frame.ofBlock, held.alike.temporaries], rfl⟩
  have frameKnown := held.formed.all_blockFrame ref allKnown
  obtain ⟨after, taken⟩ := reached stage (held.addFrame same frameKnown)
    (@Action.extends_perform stage.val.1 (.enter _) frameKnown) (.addFrame _ _) (.addFrame _ _)
  refine ⟨after, taken, fitAll raised
    (fun node found => (held.formed.within.bodies ref node found).mono taken.later.1) ?_⟩
  rw [show after.val.1 = _ from taken.first, show after.val.2 = _ from taken.second]
  rcases blocks with ⟨-, needless⟩ | ⟨sameHome, enough⟩
  · exact Or.inr ⟨0, (Arena.has_push _ _ _).mpr (Or.inr rfl), needless⟩
  · have parents : (stage.val.2.blockFrame ref arguments).parent =
        (stage.val.1.blockFrame ref arguments).parent := sameHome
    cases captured : (stage.val.1.blockAt ref).captured with
    | none =>
        refine Or.inl (.addFrame held.alike parents ?_ fun home found => ?_)
        · simp only [Image.blockFrame, Frame.ofBlock, sameHome, captured]
        · cases captured.symm.trans found
    | some home =>
        have only : ∀ parent, (stage.val.1.blockFrame ref arguments).parent = some parent →
            parent = home := fun parent found => Option.some.inj (found.symm.trans captured)
        rcases enough home captured with shared | ⟨levels, shared, inside⟩
        · refine Or.inl (.addFrame held.alike parents ?_ fun parent found => ?_)
          · simp only [Image.blockFrame, Frame.ofBlock, sameHome, captured, shared.receiver]
          · rw [only parent found]
            exact shared
        · refine Or.inr ⟨levels + 1, .addFrame held.alike parents fun parent found => ?_, inside⟩
          rw [only parent found]
          exact shared

theorem laws : elision.Laws where
  refl := fun stage => ⟨.refl _, .refl _, .refl _⟩
  trans := fun ⟨extended, kept, keptToo⟩ ⟨extendedToo, later, laterToo⟩ =>
    ⟨extended.trans extendedToo, kept.trans later, keptToo.trans laterToo⟩
  alike := fun stage => stage.property.alike
  formed := fun stage => stage.property.formed
  extended := fun later => later.1
  carry := fun {stage _ _ _ _} ⟨extended, kept, keptToo⟩ ⟨raised, provided, enough⟩ =>
    ⟨raised, fun node found => (provided node found).mono extended,
      enough.mono stage.property.alike.frameCount kept keptToo⟩
  paired := paired
  act := fun stage action common allowed =>
    reached stage (stage.property.perform common allowed) (Action.extends_perform allowed)
      (.of_scaffold common.sameScaffold) (.of_scaffold common.sameScaffold)
  noted := fun stage describe => by
    have extended := @Action.extends_perform stage.val.1
      (.noteDown (stage.val.1.note describe).journal) trivial
    rw [← Image.note_eq_perform] at extended
    exact reached stage (stage.property.note describe) extended
      (.of_scaffold (.note _ describe)) (.of_scaffold (.note _ describe))
  resolve := fun stage site selector receiver _ _ =>
    (stage.property.lookupAt site selector receiver).1
  resolveSuper := fun stage site origin selector _ =>
    (stage.property.lookupSuperAt site origin selector).1
  enterMethod := enterMethod
  enterBlock := enterBlock

theorem partners (budget : Nat) : elision.Partners (.ofBudget budget) (.ofBudget budget) :=
  (interpreters_of_unmixed laws (fun fits => by cases fits.1) (fun fits => by cases fits.1)
    budget).toPartners

/-- Hosts of which one has blocks that keep hold of less. -/
def hosting : Hosting where
  Link image other := image.HoldsLess other
  Ready _ := True
  Similar routine other := other = routine
  removes := True

variable {image other : Image}

/-- The same method is installed on both sides. -/
theorem install (held : image.HoldsLess other) {holder : ClassRef} {selector : Selector}
    {behavior : Behavior} (allowed : (Action.install holder selector behavior).Allowed image)
    (raised : List.Forall₂ Code.Raised (Method.body { holder, selector, behavior })
      (Method.body { holder, selector, behavior })) :
    (image.addMethod holder selector behavior).HoldsLess
      (other.addMethod holder selector behavior) := by
  have alike := held.alike.addMethod holder selector (.refl behavior)
  have formed := Action.wellFormed_perform held.formed allowed
  have next : other.methods.next = image.methods.next := congrArg Ref.mk held.alike.methodCount
  obtain ⟨journal, result⟩ := image.addMethod_eq holder selector behavior
  obtain ⟨journalToo, resultToo⟩ := other.addMethod_eq holder selector behavior
  simp only [Action.perform] at formed
  rw [result] at alike formed ⊢
  rw [resultToo] at alike ⊢
  exact {
    alike
    formed
    settings := held.settings
    sites := by simp only [held.sites]
    methods := fun ref => by
      simp only [Image.methodAt, Arena.get_push, next]
      split
      · exact raised
      · exact held.methods ref
    blocks := fun ref known => (held.blocks ref known).mono held.alike.frameCount (.of_frames rfl)
      (.of_frames rfl) }

/-- A host action that leaves methods, blocks and frames alone. -/
theorem act (held : image.HoldsLess other) {action : Action} (allowed : action.Allowed image)
    (alike : (action.perform image).Resembles (action.perform other))
    (settings : (action.perform image).settings = image.settings)
    (settingsToo : (action.perform other).settings = other.settings)
    (sites : (action.perform other).sites = (action.perform image).sites)
    (methods : (action.perform image).methods = image.methods)
    (methodsToo : (action.perform other).methods = other.methods)
    (heap : (action.perform image).heap = image.heap)
    (heapToo : (action.perform other).heap = other.heap) :
    (action.perform image).HoldsLess (action.perform other) :=
  held.step alike (Action.wellFormed_perform held.formed allowed) settings settingsToo sites
    methods methodsToo (congrArg Heap.blocks heap) (congrArg Heap.blocks heapToo)
    (.of_frames (congrArg Heap.frames heap)) (.of_frames (congrArg Heap.frames heapToo))

theorem register (held : image.HoldsLess other) (name : String) {superclass : ClassRef}
    (fields classFields : List String) (known : image.classes.Has superclass) :
    ((Action.register name superclass fields classFields).perform image).HoldsLess
      ((Action.register name superclass fields classFields).perform other) := by
  refine act held known (held.alike.register name superclass fields classFields) ?_ ?_ ?_ ?_ ?_ ?_
    ?_ <;> simp only [Action.perform, Image.registerPair_eq, held.sites]

/-- The same source is prepared alike on both sides, since the sites are the same. -/
theorem prepared (held : image.HoldsLess other) {holder : ClassRef}
    (definition : Source.MethodDefinition) (known : image.classes.Has holder) :
    hosting.Preparations holder definition.selector
      (Image.prepareMethod holder definition image)
      (Image.prepareMethod holder definition other) := by
  have surroundings : other.surroundings holder definition.selector =
      image.surroundings holder definition.selector := by
    simp only [Image.surroundings, held.alike.classAt, held.settings]
  have grown := definition.prepare_grows (image.surroundings holder definition.selector) image.draft
  have allocated : ∀ draft : Draft, image.sites.Grown draft →
      (image.adopt draft).HoldsLess (other.adopt draft) := fun draft grown =>
    @act image other held (.allocate draft) grown (held.alike.adopt rfl rfl rfl) rfl rfl rfl rfl
      rfl rfl rfl
  have drafts : other.draft = image.draft := by
    simp only [Image.draft, held.sites, held.alike.interner]
  unfold Image.prepareMethod
  rw [surroundings, drafts]
  cases success : definition.prepare (image.surroundings holder definition.selector)
      image.draft with
  | error flaw draft =>
      rw [success] at grown
      exact .error (allocated draft grown)
  | ok routine draft =>
      rw [success] at grown
      refine .ok rfl (allocated draft grown) known ?_
      obtain ⟨temporaries, body, codes, -, -, preparedAll, rfl⟩ :=
        Source.MethodDefinition.prepared_of_prepare success
      refine install (allocated draft grown) ⟨known, ?_⟩
        (Source.Expression.raised_of_prepareAll body preparedAll)
      exact .of_furnishes held.formed grown
        (fun origin found => held.formed.within.superclasses holder origin found)
        (Source.Expression.prepareAll_furnishes body preparedAll)

theorem hosting_laws : hosting.Laws elision where
  alike := fun held => held.alike
  formed := fun held => held.formed
  staged := fun {image other} held _ => ⟨⟨(image, other), held⟩, rfl, rfl⟩
  linked := fun {_ after} _ _ => after.property
  noted := fun held describe => held.note describe
  bound := fun {image other} held name value known =>
    @act image other held (.bind name value) known (held.alike.setGlobal name value) rfl rfl
      held.sites rfl rfl rfl rfl
  registered := fun held name _ fields classFields known =>
    register held name fields classFields known
  installed := fun {image _} held holder selector behavior known bodiless => by
    cases behavior with
    | defined routine => exact bodiless.elim
    | primitive operation => exact install held ⟨known, image.fresh_nil⟩ .nil
    | missing title => exact install held ⟨known, image.fresh_nil⟩ .nil
  prepared := fun held _ definition known => prepared held definition known
  detached := fun {image other} held block known => by
    have shared := held.blocks block known
    have kept : image.SharesBlock other { image.blockAt block with captured := none }
        { other.blockAt block with captured := none } :=
      ⟨shared.raised, Or.inr ⟨rfl, fun _ found => by cases found⟩⟩
    exact held.addBlock kept (held.alike.parameters block) (held.alike.temporaries block)
      (held.formed.within.bodies block)
  removed := fun _ {image other} held holder selector =>
    @act image other held (.remove holder selector) trivial
      (held.alike.removeMethod holder selector) rfl rfl held.sites rfl rfl rfl rfl

/-- Images that hold less serve each request alike. -/
theorem serve {budget : Nat} {request : Request} (held : image.HoldsLess other)
    (admissible : request.Admissible image) :
    (request.serve (.ofBudget budget) other).1 = (request.serve (.ofBudget budget) image).1 ∧
      (request.serve (.ofBudget budget) image).2.HoldsLess
        (request.serve (.ofBudget budget) other).2 := by
  have served := Hosting.serve_served hosting_laws laws (partners budget) held trivial admissible
    fun _ => trivial
  generalize request.serve (.ofBudget budget) image = result at served
  generalize request.serve (.ofBudget budget) other = resultToo at served
  cases served with
  | same _ held => exact ⟨rfl, held⟩
  | prepared same held => exact ⟨congrArg Response.prepared same, held⟩
  | tired lenient => exact lenient.elim

end Elision

end Correspondence

/-- A method in which every block keeps hold of the activation that it is made in. -/
def Method.capturing (method : Method) : Method :=
  match method.behavior with
  | .defined routine =>
      { method with
        behavior := .defined { routine with body := Code.capturingAll routine.body } }
  | _ => method

theorem Method.body_capturing (method : Method) :
    method.capturing.body = Code.capturingAll method.body := by
  obtain ⟨holder, selector, behavior⟩ := method
  cases behavior <;> rfl

theorem Method.resembles_capturing (method : Method) : method.Resembles method.capturing := by
  obtain ⟨holder, selector, behavior⟩ := method
  cases behavior with
  | defined routine => exact ⟨rfl, rfl, .defined rfl rfl⟩
  | primitive operation => exact ⟨rfl, rfl, .primitive operation⟩
  | missing title => exact ⟨rfl, rfl, .missing title⟩

namespace Image

/-- An image with methods in which every block keeps hold of the activation that it is made in. -/
def capturing (image : Image) : Image :=
  { image with methods := { cells := image.methods.cells.map Method.capturing } }

theorem methodAt_capturing (image : Image) (ref : MethodRef) :
    image.capturing.methodAt ref = (image.methodAt ref).capturing := by
  simp only [capturing, methodAt, Arena.get, Array.getD_eq_getD_getElem?, Array.getElem?_map]
  cases image.methods.cells[ref.index]? <;> rfl

/-- An image with a block that keeps hold of another frame, or of none. -/
def recapture (image : Image) (ref : BlockRef) (captured : Option FrameRef) : Image :=
  let blocks := image.heap.blocks.modify ref fun closure => { closure with captured }
  { image with heap := { image.heap with blocks } }

namespace HoldsLess

variable {image other : Image}

theorem capturing (held : image.HoldsLess other) : image.HoldsLess other.capturing where
  alike := { held.alike with
    methodCount := by
      simp only [Image.capturing, Arena.size, Array.size_map]
      exact held.alike.methodCount
    methods := fun ref => by
      have before := held.alike.methods ref
      have changed := (other.methodAt ref).resembles_capturing
      rw [methodAt_capturing]
      exact ⟨changed.holder.trans before.holder, changed.selector.trans before.selector,
        before.behavior.trans changed.behavior⟩ }
  formed := held.formed
  settings := held.settings
  sites := held.sites
  methods := fun ref => by
    rw [methodAt_capturing, Method.body_capturing]
    exact Code.raisedAll_capturing _ (held.methods ref)
  blocks := fun ref known => (held.blocks ref known).mono held.alike.frameCount
    (.refl image) (.of_frames rfl)

/-- Whatever a block keeps hold of that needs nothing, no program can tell. -/
theorem recapture (held : image.HoldsLess image) {ref : BlockRef}
    (free : (image.blockAt ref).captured = none)
    (needless : Code.anyReachOut 0 (image.blockAt ref).body = false)
    (captured : Option FrameRef) : image.HoldsLess (image.recapture ref captured) := by
  have blockAt : ∀ block, (image.recapture ref captured).blockAt block = image.blockAt block ∨
      block = ref ∧ (image.recapture ref captured).blockAt block =
        { image.blockAt block with captured } := by
    intro block
    simp only [Image.recapture, Image.blockAt, Arena.get_modify]
    split
    · next changed => exact Or.inr ⟨changed.1, rfl⟩
    · exact Or.inl rfl
  exact {
    alike := { held.alike with
      blockCount := Arena.size_modify _ _ _
      parameters := fun block => by
        rcases blockAt block with same | ⟨-, same⟩ <;> rw [same]
      temporaries := fun block => by
        rcases blockAt block with same | ⟨-, same⟩ <;> rw [same] }
    formed := held.formed
    settings := held.settings
    sites := held.sites
    methods := held.methods
    blocks := fun block known => by
      have shared := (held.blocks block known).mono rfl (.refl image)
        (show image.KeepsPlaces (image.recapture ref captured) from .of_frames rfl)
      rcases blockAt block with same | ⟨rfl, same⟩
      · rw [same]
        exact shared
      · rw [same]
        exact ⟨shared.raised, Or.inl ⟨free, needless⟩⟩ }

/-- Where there is no code, there is nothing to hold on to. -/
theorem of_codeless {image : Image} (formed : image.WellFormed) (codeless : image.Codeless) :
    image.HoldsLess image where
  alike := .refl _
  formed := formed
  settings := rfl
  sites := rfl
  methods := fun ref => by
    rw [Method.body_of_bodiless (codeless.methods ref)]
    exact .nil
  blocks := fun ref known => absurd known (Arena.not_has_of_size_eq_zero codeless.blocks ref)

theorem initial (platform : Platform) (settings : Settings) (listening : Bool) :
    (Image.initial platform settings listening).HoldsLess
      (Image.initial platform settings listening) :=
  of_codeless (wellFormed_initial platform settings listening)
    (codeless_initial platform settings listening)

end HoldsLess

end Image

/-- Serve requests one after the other, with every block keeping hold of the activation that it is
made in: what a request installs is changed accordingly before the next one is served. -/
def Request.serveAllCapturing (machine : Machine) :
    List Request → Image → List Response × Image
  | [], image => ([], image)
  | request :: rest, image =>
      let (response, image) := request.serve machine image
      let (responses, image) := serveAllCapturing machine rest image.capturing
      (response :: responses, image)

open Correspondence in
/-- Two sessions, one of them with blocks that keep hold of more, are served alike. -/
theorem Request.serveAll_capturing {budget : Nat} (requests : List Request) {image other : Image}
    (admissible : Request.Throughout (.ofBudget budget)
      (fun image request => request.Admissible image) requests image)
    (itself : image.HoldsLess image) (held : image.HoldsLess other) :
    (Request.serveAllCapturing (.ofBudget budget) requests other).1 =
        (Request.serveAll (.ofBudget budget) requests image).1 ∧
      (Request.serveAll (.ofBudget budget) requests image).2.HoldsLess
        (Request.serveAll (.ofBudget budget) requests image).2 ∧
      (Request.serveAll (.ofBudget budget) requests image).2.HoldsLess
        (Request.serveAllCapturing (.ofBudget budget) requests other).2 := by
  induction requests generalizing image other with
  | nil => exact ⟨rfl, itself, held⟩
  | cons request rest inductionHypothesis =>
      obtain ⟨known, later⟩ := admissible
      obtain ⟨same, served⟩ := Elision.serve held known
      obtain ⟨responses, final, finalToo⟩ := inductionHypothesis later
        (Elision.serve itself known).2 served.capturing
      refine ⟨?_, final, finalToo⟩
      simp only [Request.serveAllCapturing, Request.serveAll, same, responses]

/-- It makes no difference that blocks are made without the activation around them where they need
nothing of it.  Every session is answered in the same way as on a machine where all blocks keep hold
of the activation they are made in, and leaves an image that no program can tell from the other one.
The machines are on one platform: they draw the same random numbers and find things at the same
addresses.  A block that was made without an activation needs none: neither its body nor a block
inside it refers to the receiver, to the method to return from or to a slot outside, and whatever
frame the block is given to hold on to, the next request is answered the same. -/
theorem capture_elision_sound {platform : Platform} {settings : Settings} {listening : Bool}
    {budget : Nat} {requests : List Request}
    (admissible : Request.Throughout (.ofBudget budget)
      (fun image request => request.Admissible image) requests
      (.initial platform settings listening)) :
    let machine := Machine.ofBudget budget
    let plain := Request.serveAll machine requests (.initial platform settings listening)
    let full := Request.serveAllCapturing machine requests (.initial platform settings listening)
    full.1 = plain.1 ∧ plain.2.Resembles full.2 ∧
      ∀ ref, plain.2.heap.blocks.Has ref →
        (full.2.blockAt ref).captured ≠ (plain.2.blockAt ref).captured →
        Code.anyReachOut 0 (plain.2.blockAt ref).body = false ∧
        ∀ (captured : Option FrameRef) (request : Request), request.Admissible plain.2 →
          (request.serve machine (plain.2.recapture ref captured)).1 =
              (request.serve machine plain.2).1 ∧
            (request.serve machine plain.2).2.Resembles
              (request.serve machine (plain.2.recapture ref captured)).2 := by
  intro machine plain full
  have start := Image.HoldsLess.initial platform settings listening
  obtain ⟨same, itself, held⟩ := Request.serveAll_capturing requests admissible start start
  refine ⟨same, held.alike, fun ref known elided => ?_⟩
  rcases (held.blocks ref known).held with ⟨free, needless⟩ | ⟨same, -⟩
  · refine ⟨needless, fun captured request admissible => ?_⟩
    obtain ⟨answered, served⟩ := Correspondence.Elision.serve
      (itself.recapture free needless captured) admissible
    exact ⟨answered, served.alike⟩
  · exact absurd same elided

/-- A session with a block that needs nothing, although a block inside it needs its parameter. -/
def nestingSession : List Request :=
  let parameter := Source.Expression.read (.slot { kind := .argument, depth := 1, index := 0 })
  let nest := Source.Expression.block 1 0 [.send (.block 0 0 [parameter]) "value" []]
  [.defineClass {
      name := "Maker"
      superclass := none
      fields := []
      methods := [
        { selector := "nest", parameters := 0, body := .expressions 0 [.answer nest .absent] }]
      classFields := []
      classMethods := [] },
    .instantiate ⟨37⟩,
    .send "nest" (.object ⟨0⟩) [],
    .send "value:" (.block ⟨0⟩) [.integer 3]]

/-- What comes of the session. -/
def nestingOutcome : List Response × Image :=
  Request.serveAll (.ofBudget 4) nestingSession (.initial .plain .standard false)

/-- What comes of the session with every block keeping hold of the activation it is made in. -/
def nestingOutcomeCapturing : List Response × Image :=
  Request.serveAllCapturing (.ofBudget 4) nestingSession (.initial .plain .standard false)

/-- The block is made without the activation around it and answers the same as with it. -/
theorem capture_elision_sound_nested :
    (nestingOutcome.2.blockAt ⟨0⟩).captured = none ∧
      (nestingOutcomeCapturing.2.blockAt ⟨0⟩).captured = some ⟨0⟩ ∧
      nestingOutcomeCapturing.1 = nestingOutcome.1 ∧
      Code.anyReachOut 0 (nestingOutcome.2.blockAt ⟨0⟩).body = false := by
  have admissible : Request.Throughout (.ofBudget 4)
      (fun image request => request.Admissible image) nestingSession
      (.initial .plain .standard false) := by decide +kernel
  have known : nestingOutcome.2.heap.blocks.Has ⟨0⟩ := by decide +kernel
  have free : (nestingOutcome.2.blockAt ⟨0⟩).captured = none := by decide +kernel
  have held : (nestingOutcomeCapturing.2.blockAt ⟨0⟩).captured = some ⟨0⟩ := by decide +kernel
  have different : (nestingOutcomeCapturing.2.blockAt ⟨0⟩).captured ≠
      (nestingOutcome.2.blockAt ⟨0⟩).captured := by
    rw [held, free]
    exact Option.some_ne_none _
  obtain ⟨same, -, elided⟩ := capture_elision_sound admissible
  unfold nestingOutcome at known free different ⊢
  unfold nestingOutcomeCapturing at held different ⊢
  exact ⟨free, held, same, (elided ⟨0⟩ known different).1⟩

end MessageMachine
