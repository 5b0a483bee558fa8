import Mathlib.Data.List.Nodup
import MessageMachine.Proofs.Acceptance
import MessageMachine.Proofs.Arity
import MessageMachine.Proofs.Sparing
import MessageMachine.Proofs.Timeline

/-!
# The arrays of literals

A literal is evaluated to a value that is made of arrays as the literal is, all of them new and no
two the same.  In a session nothing refers to one of them before the literal has been evaluated, no
other evaluation of a literal makes one of them again, and each keeps its elements unless a value is
put into it.
-/

namespace MessageMachine

namespace Image

mutual

/-- Whether a value is that of a literal, with the arrays that it is made of, in the order in which
they are made: the arrays inside an array before the array itself. -/
inductive Portrays (image : Image) : Source.Literal → Value → List ArrayRef → Prop
  | symbol (text : String) : Portrays image (.symbol text) (.symbol text) []
  | string (text : String) : Portrays image (.string text) (.string text) []
  | double (number : Double) : Portrays image (.double number) (.double number) []
  | integer (number : Int64) : Portrays image (.integer number) (.integer number) []
  | big {digits : String} {number : Int} : Integer.read digits = .ok number →
      Portrays image (.big digits) (.big number) []
  | array {items : List Source.Literal} {ref : ArrayRef} {refs : List ArrayRef} :
      PortraysAll image items (image.arrayAt ref).toList refs →
      Portrays image (.array items) (.array ref) (refs ++ [ref])

/-- Whether values are those of literals, with the arrays that they are made of. -/
inductive PortraysAll (image : Image) :
    List Source.Literal → List Value → List ArrayRef → Prop
  | nil : PortraysAll image [] [] []
  | cons {item : Source.Literal} {rest : List Source.Literal} {value : Value} {values : List Value}
      {refs others : List ArrayRef} : Portrays image item value refs →
      PortraysAll image rest values others →
      PortraysAll image (item :: rest) (value :: values) (refs ++ others)

end

mutual

/-- A value is that of a literal as long as its arrays are what they were. -/
theorem Portrays.mono {image after : Image} {literal : Source.Literal} {value : Value}
    {refs : List ArrayRef} (portrays : image.Portrays literal value refs)
    (same : ∀ ref ∈ refs, after.arrayAt ref = image.arrayAt ref) :
    after.Portrays literal value refs := by
  cases portrays with
  | symbol text => exact .symbol text
  | string text => exact .string text
  | double number => exact .double number
  | integer number => exact .integer number
  | big found => exact .big found
  | @array items ref refs portrayed =>
      have inside := portrayed.mono fun other member =>
        same other (List.mem_append_left [ref] member)
      rw [← same ref (List.mem_append_right refs (List.mem_singleton_self ref))] at inside
      exact .array inside

theorem PortraysAll.mono {image after : Image} {items : List Source.Literal} {values : List Value}
    {refs : List ArrayRef} (portrays : image.PortraysAll items values refs)
    (same : ∀ ref ∈ refs, after.arrayAt ref = image.arrayAt ref) :
    after.PortraysAll items values refs := by
  cases portrays with
  | nil => exact .nil
  | @cons item rest value values refs others first portrayed =>
      exact .cons (first.mono fun ref member => same ref (List.mem_append_left others member))
        (portrayed.mono fun ref member => same ref (List.mem_append_right refs member))

end

/-- The arrays that were made since an earlier image. -/
def arraysSince (earlier image : Image) : List ArrayRef :=
  (List.range' earlier.heap.arrays.size
    (image.heap.arrays.size - earlier.heap.arrays.size)).map Ref.mk

/-- Add arrays, one after the other. -/
def addArrays (image : Image) (added : List (Array Value)) : Image :=
  added.foldl addArray image

variable {earlier between image : Image}

theorem mem_arraysSince {ref : ArrayRef} :
    ref ∈ earlier.arraysSince image ↔
      ¬ earlier.heap.arrays.Has ref ∧ image.heap.arrays.Has ref := by
  rcases ref with ⟨index⟩
  simp only [arraysSince, List.mem_map, List.mem_range'_1, Ref.mk.injEq, exists_eq_right, Arena.Has]
  omega

theorem nodup_arraysSince (earlier image : Image) : (earlier.arraysSince image).Nodup := by
  refine List.Nodup.map (fun first second same => ?_) List.nodup_range'
  cases same
  rfl

/-- What was made since an image was made up to another one or since then. -/
theorem arraysSince_append (before : earlier.heap.arrays.size ≤ between.heap.arrays.size)
    (after : between.heap.arrays.size ≤ image.heap.arrays.size) :
    earlier.arraysSince between ++ between.arraysSince image = earlier.arraysSince image := by
  rw [arraysSince, arraysSince, ← List.map_append, range'_span before after]
  rfl

theorem arraysSince_self (image : Image) : image.arraysSince image = [] := by
  rw [arraysSince, Nat.sub_self]
  rfl

theorem arraysSince_addArray (image : Image) (elements : Array Value) :
    image.arraysSince (image.addArray elements) = [image.heap.arrays.next] := by
  have grown : (image.addArray elements).heap.arrays.size - image.heap.arrays.size = 1 := by
    rw [addArray, Arena.size_push, Nat.add_sub_cancel_left]
  rw [arraysSince, grown]
  rfl

theorem addArrays_append (image : Image) (added more : List (Array Value)) :
    (image.addArrays added).addArrays more = image.addArrays (added ++ more) :=
  (List.foldl_append).symm

/-- Adding arrays changes none of those that there are. -/
theorem Spares.addArrays (spared : ArrayRef → Prop) (image : Image) (added : List (Array Value)) :
    image.Spares spared (image.addArrays added) := by
  induction added generalizing image with
  | nil => exact .refl spared image
  | cons elements rest inductionHypothesis =>
      exact (Spares.addArray spared image elements).trans (inductionHypothesis _)

end Image

open Source in
mutual

/-- A literal is evaluated to a value of its own arrays, and nothing but these is added. -/
theorem Source.Literal.evaluate_portrays (literal : Literal) {datum : Datum}
    (denotes : literal.Denotes datum) (image : Image) :
    ∃ value added, datum.evaluate image = .ok value (image.addArrays added) ∧
      (image.addArrays added).Portrays literal value
        (image.arraysSince (image.addArrays added)) := by
  cases denotes with
  | @symbol text => exact ⟨.symbol text, [], rfl, image.arraysSince_self ▸ .symbol text⟩
  | @string text => exact ⟨.string text, [], rfl, image.arraysSince_self ▸ .string text⟩
  | @double number => exact ⟨.double number, [], rfl, image.arraysSince_self ▸ .double number⟩
  | @integer number => exact ⟨.integer number, [], rfl, image.arraysSince_self ▸ .integer number⟩
  | @big _ number found => exact ⟨.big number, [], rfl, image.arraysSince_self ▸ .big found⟩
  | @array items data denoteThem =>
      rcases Literal.evaluateAll_portrays items denoteThem image with
        ⟨values, added, evaluated, portrayed⟩
      have final : (image.addArrays added).addArray values.toArray =
          image.addArrays (added ++ [values.toArray]) :=
        image.addArrays_append added [values.toArray]
      refine ⟨.array (image.addArrays added).heap.arrays.next, added ++ [values.toArray], ?_, ?_⟩
      · rw [Datum.evaluate, ← final]
        simp only [Bind.bind, EStateM.bind, evaluated]
        rfl
      · have before := Image.Spares.addArrays (fun _ => True) image added
        have step := Image.Spares.addArray (fun _ => True) (image.addArrays added) values.toArray
        rw [← final, ← Image.arraysSince_append before.count step.count,
          Image.arraysSince_addArray]
        refine .array ?_
        have made : ((image.addArrays added).addArray values.toArray).arrayAt
            (image.addArrays added).heap.arrays.next = values.toArray :=
          Arena.get_push_next _ _
        rw [made]
        exact portrayed.mono fun ref member =>
          step.kept ref trivial (Image.mem_arraysSince.mp member).2

theorem Source.Literal.evaluateAll_portrays (items : List Literal) {data : List Datum}
    (denoteThem : List.Forall₂ Literal.Denotes items data) (image : Image) :
    ∃ values added, Datum.evaluateAll data image = .ok values (image.addArrays added) ∧
      (image.addArrays added).PortraysAll items values
        (image.arraysSince (image.addArrays added)) := by
  cases denoteThem with
  | nil => exact ⟨[], [], rfl, image.arraysSince_self ▸ .nil⟩
  | @cons item datum rest others denotes denoteThem =>
      rcases Literal.evaluate_portrays item denotes image with ⟨value, added, evaluated, portrays⟩
      rcases Literal.evaluateAll_portrays rest denoteThem (image.addArrays added) with
        ⟨values, more, evaluatedThem, portrayed⟩
      have before := Image.Spares.addArrays (fun _ => True) image added
      have step := Image.Spares.addArrays (fun _ => True) (image.addArrays added) more
      rw [Image.addArrays_append] at evaluatedThem portrayed step
      refine ⟨value :: values, added ++ more, ?_, ?_⟩
      · simp only [Datum.evaluateAll, Bind.bind, EStateM.bind, evaluated, evaluatedThem]
        rfl
      · rw [← Image.arraysSince_append before.count step.count]
        exact .cons (portrays.mono fun ref member =>
          step.kept ref trivial (Image.mem_arraysSince.mp member).2) portrayed

end

/-- Everything that an image holds exists there. -/
theorem Image.WellFormed.exists_of_stores {image : Image} (formed : image.WellFormed)
    {value : Value} (stores : image.Stores value) : value.Exists image := by
  cases stores with
  | global member => exact formed.within.globals _ member
  | element member => exact formed.within.elements _ _ member
  | classField member => exact formed.within.classValues _ _ member
  | reference found => exact (formed.within.contents _).references _ _ found
  | overflow found => exact (formed.within.contents _).overflow _ _ found
  | receiver ref => exact (formed.within.frames ref).receiver
  | argument member => exact (formed.within.frames _).arguments _ member
  | temporary member => exact (formed.within.frames _).temporaries _ member
  | methodLiteral | blockLiteral => trivial

open Discipline

namespace Session

/-- The values that turn up in a session, with the images in which they do. -/
inductive MeetsIn (session : Session) : Image → Value → Prop
  | stored {image : Image} {value : Value} : session.Shows image → image.Stores value →
      MeetsIn session image value
  | argument {running : Running} {below : List Running} {value : Value} :
      session.Underway (running :: below) → value ∈ running.activation.arguments →
      MeetsIn session running.image value
  | evaluated (moment : session.Moment) {value : Value} :
      Eval.carried? moment.result = some value → MeetsIn session moment.after value
  | result {running : Running} {below : List Running} {value : Value} :
      session.Underway (running :: below) → Eval.carried? running.result = some value →
      MeetsIn session running.left value
  | response {request : Request} {image : Image} {value : Value} :
      session.Serves request image →
      (request.serve (.ofBudget session.budget) image).1.carried? = some value →
      MeetsIn session (request.serve (.ofBudget session.budget) image).2 value

variable {session : Session}

/-- Images of a session in which a value turns up come before an expression is evaluated in one go,
or after it. -/
theorem order_of_meetsIn {D : Discipline} {Earlier : Image → Image → Prop}
    (clock : D.Clock session Earlier) (laws : D.Laws) (hosts : D.Hosts session)
    {moment : session.Moment} (immediate : moment.Immediate) {image : Image} {value : Value}
    (meets : session.MeetsIn image value) :
    Earlier image moment.image ∨ Earlier moment.after image := by
  cases meets with
  | stored shows' _ => exact clock.order_of_shows laws hosts immediate shows'
  | argument underway _ => exact clock.order_of_shows laws hosts immediate (.begun underway)
  | evaluated other _ => exact clock.order_of_after laws hosts immediate other
  | result underway _ => exact clock.order_of_shows laws hosts immediate (.finished underway)
  | response serves _ =>
      rcases clock.order_of_request laws hosts moment serves with before | after | during
      · exact Or.inl before
      · exact Or.inr (clock.trans after (clock.serve serves))
      · exact Or.inr during.2

section Existence

variable (begun : session.start.Regular)
  (admissible : ∀ {request image}, session.Serves request image → request.Admissible image)
include begun admissible

/-- A value exists wherever it turns up. -/
theorem exists_of_meetsIn {image : Image} {value : Value} (meets : session.MeetsIn image value) :
    value.Exists image := by
  have laws := heeding_laws (fun _ => True) fun _ => True
  have hosts := heeding_hosts begun admissible
  have always := always_regular begun admissible
  cases meets with
  | stored shows' stores => exact (always.shows shows').formed.exists_of_stores stores
  | @argument running _ _ underway member =>
      have known := (hosts.underway laws underway).2.1
      rcases running with ⟨budget, activation, image⟩
      cases activation with
      | method ref arguments => exact known value member
      | block ref arguments => exact known.2 value member
  | evaluated moment carried =>
      rcases moment with ⟨_, below, place, _, code, image, underway, opened, visited⟩
      have visit := hosts.visit laws underway opened (Code.visits_iff.mpr ⟨place, visited⟩)
      exact (code_keeps laws visit.ready visit.trusts).yields.carried laws carried
  | result underway carried => exact (hosts.yields laws underway).carried laws carried
  | @response request image _ serves carried =>
      cases evaluation : request.evaluation? with
      | some body =>
          rw [Request.serve_of_evaluation evaluation]
          exact (hosts.obeys laws serves evaluation).yields.carried laws
            (Request.carried_of_evaluation evaluation carried)
      | none =>
          have regular := always.served serves
          rcases Request.serve_reaches regular.formed (admissible serves) session.budget with
            ⟨actions, reached⟩
          rcases Request.carried_of_still evaluation carried with
            ⟨known, -⟩ | ⟨name, found⟩ | ⟨receiver, index, found⟩
          · exact known
          · exact (laws.global regular found).mono reached.extended
          · exact (laws.field regular found).mono reached.extended

end Existence

namespace Moment

/-- The arrays that are made while an expression is evaluated. -/
def made (moment : session.Moment) : List ArrayRef :=
  moment.image.arraysSince moment.after

/-- What the evaluation of a literal at a moment of a session comes to. -/
structure Renews (moment : session.Moment) (literal : Source.Literal) (value : Value) : Prop where
  /-- The literal has a value. -/
  answers : moment.result = .ok value moment.after
  /-- Nothing happens but that arrays are added. -/
  adds : ∃ added, moment.after = moment.image.addArrays added
  /-- The value is that of the literal, and its arrays are those that were added. -/
  portrays : moment.after.Portrays literal value moment.made
  /-- No array stands in two places of the value. -/
  distinct : moment.made.Nodup
  /-- The arrays are new. -/
  new : ∀ ref ∈ moment.made, ¬ moment.image.heap.arrays.Has ref
  /-- An array turns up nowhere before all of them were made: it is not held by a global, an array,
  a field or a frame, not given to an activation and not come to. -/
  unmet : ∀ ref ∈ moment.made, ∀ image, session.MeetsIn image (.array ref) →
    moment.after.heap.arrays.size ≤ image.heap.arrays.size
  /-- Another evaluation of a literal, be it the same one, makes none of the arrays. -/
  unshared : ∀ (other : session.Moment) (datum : Datum), other.code = .literal datum →
    other ≠ moment → moment.made.Disjoint other.made
  /-- An array keeps its elements unless something is put into it. -/
  kept : ∀ ref ∈ moment.made, ∀ image, session.Shows image → image.heap.arrays.Has ref →
    image.arrayAt ref = moment.after.arrayAt ref ∨
      ∃ running below, session.Underway (running :: below) ∧ running.Puts ref

variable {moment other : session.Moment} {datum : Datum}

/-- Literals are evaluated in one go. -/
theorem immediate_of_literal (here : moment.code = .literal datum) : moment.Immediate where
  parts := by rw [here]; rfl
  asks := fun activation image asks => by
    simp only [here, Code.evaluate] at asks
    exact asks.not_ignores fun _ _ => rfl

/-- Two evaluations of literals make arrays of their own. -/
theorem disjoint_made (here : moment.code = .literal datum) {datumToo : Datum}
    (there : other.code = .literal datumToo) (apart : other ≠ moment) :
    moment.made.Disjoint other.made := by
  have clock := arrays_clock session.avoids_none
  have laws := sparing_laws session.avoids_none
  have hosts := sparing_hosts session.avoids_none
  intro ref member memberToo
  rcases Image.mem_arraysSince.mp member with ⟨new, known⟩
  rcases Image.mem_arraysSince.mp memberToo with ⟨newToo, knownToo⟩
  rcases clock.order_of_moments laws hosts moment other with
    same | before | after | encloses | encloses
  · exact apart same.symm
  · exact newToo (before.has known)
  · exact new (after.has knownToo)
  · exact (immediate_of_literal here).not_encloses encloses
  · exact (immediate_of_literal there).not_encloses encloses

/-- An array that was made while a literal was evaluated keeps its elements where nothing is put
into it. -/
theorem kept_of_avoids (here : moment.code = .literal datum) {ref : ArrayRef}
    (member : ref ∈ moment.made) (avoids : session.Avoids (· = ref)) {image : Image}
    (shows' : session.Shows image) (present : image.heap.arrays.Has ref) :
    image.arrayAt ref = moment.after.arrayAt ref := by
  rcases Image.mem_arraysSince.mp member with ⟨new, known⟩
  rcases (arrays_clock avoids).order_of_shows (sparing_laws avoids) (sparing_hosts avoids)
    (immediate_of_literal here) shows' with before | after
  · exact absurd (before.has present) new
  · exact after.kept ref rfl known

end Moment

end Session

/-- Array literals are never aliased.  Whenever a literal is evaluated in a session, and whatever
happened to the arrays of the session before, it has a value that is equal to the literal as it is
written, and the arrays of this value at every level are new.  There is no reference to one of them
before, and no other evaluation of a literal has made one of them, so that what is put into the
arrays of the one value is not seen in the other. -/
theorem literals_never_aliased {platform : Platform} {settings : Settings} {listening : Bool}
    {budget : Nat} {requests : List Request}
    (admissible : Request.Throughout (.ofBudget budget)
      (fun image request => request.Admissible image) requests
      (.initial platform settings listening))
    (moment : (Session.fresh platform settings listening budget requests).Moment)
    {literal : Source.Literal} {datum : Datum} {draft after : Draft}
    (prepared : literal.prepare draft = .ok datum after) (here : moment.code = .literal datum) :
    ∃ value, moment.Renews literal value := by
  have regular := (Session.coherent_fresh platform settings listening budget requests).regular
  rcases literal.evaluate_portrays (literal.denotes_of_prepare prepared) moment.image with
    ⟨value, added, evaluated, portrays⟩
  have result : moment.result = .ok value (moment.image.addArrays added) := by
    rw [Session.Moment.result, here, Code.evaluate]
    exact evaluated
  have after : moment.after = moment.image.addArrays added := by
    rw [Session.Moment.after, result]
    rfl
  have immediate := Session.Moment.immediate_of_literal here
  refine ⟨value, ?_⟩
  constructor
  case answers => rw [result, after]
  case adds => exact ⟨added, after⟩
  case portrays =>
    rw [Session.Moment.made, after]
    exact portrays
  case distinct => exact Image.nodup_arraysSince _ _
  case new => exact fun ref member => (Image.mem_arraysSince.mp member).1
  case unmet =>
    intro ref member image meets
    rcases Session.order_of_meetsIn (arrays_clock (Session.avoids_none _))
      (sparing_laws (Session.avoids_none _)) (sparing_hosts (Session.avoids_none _)) immediate
      meets with before | after
    · exact absurd (before.has (Session.exists_of_meetsIn regular admissible.of_fresh meets))
        (Image.mem_arraysSince.mp member).1
    · exact after.count
  case unshared =>
    exact fun other datumToo there apart => Session.Moment.disjoint_made here there apart
  case kept =>
    intro ref member image shows' present
    by_cases avoids : (Session.fresh platform settings listening budget requests).Avoids (· = ref)
    · exact Or.inl (Session.Moment.kept_of_avoids here member avoids shows' present)
    · right
      simp only [Session.Avoids, not_forall, not_not] at avoids
      rcases avoids with ⟨running, below, underway, _, rfl, puts⟩
      exact ⟨running, below, underway, puts⟩

/-- An array in an array. -/
def nestedLiteral : Source.Literal :=
  .array [.integer 1, .array [.integer 2]]

def nestedDatum : Datum :=
  .array [.integer 1, .array [.integer 2]]

/-- A class with a method that answers an array in an array. -/
def renewingClass : Source.ClassDefinition where
  name := "Renewing"
  superclass := none
  fields := []
  methods := []
  classFields := []
  classMethods := [{
    selector := "make"
    parameters := 0
    body := .expressions 0 [.answer (.literal nestedLiteral) ⟨1, 10⟩] }]

/-- Something is put into the inner array, and the method is run again. -/
def renewingRequests : List Request :=
  [.defineClass renewingClass, .send "make" (.classObject ⟨37⟩) [],
    .send "at:put:" (.array ⟨0⟩) [.integer 1, .integer 7], .send "make" (.classObject ⟨37⟩) []]

def renewingSession : Session :=
  .fresh .plain .standard false 2 renewingRequests

/-- The image with the class. -/
def renewingImage : Image :=
  ((Request.defineClass renewingClass).serve (.ofBudget 2) (.initial .plain .standard false)).2

/-- The image after the method was run. -/
def renewedImage : Image :=
  ((Request.send "make" (.classObject ⟨37⟩) []).serve (.ofBudget 2) renewingImage).2

/-- The image after something was put into the inner array. -/
def alteredImage : Image :=
  ((Request.send "at:put:" (.array ⟨0⟩) [.integer 1, .integer 7]).serve (.ofBudget 2)
    renewedImage).2

/-- Whether a method does nothing but answer the array. -/
def answersNested : Behavior → Bool
  | .defined ⟨0, 0, [.answer (.literal (.array [.integer 1, .array [.integer 2]])) _], _⟩ => true
  | _ => false

theorem exists_of_answersNested {behavior : Behavior} (answers : answersNested behavior = true) :
    ∃ span sites, behavior = .defined ⟨0, 0, [.answer (.literal nestedDatum) span], sites⟩ := by
  unfold answersNested at answers
  split at answers
  · exact ⟨_, _, rfl⟩
  · cases answers

/-- Whether a method does nothing but put a value into an array. -/
def putsElement : Behavior → Bool
  | .primitive (.array .atPut) => true
  | _ => false

theorem eq_of_putsElement {behavior : Behavior} (puts : putsElement behavior = true) :
    behavior = .primitive (.array .atPut) := by
  unfold putsElement at puts
  split at puts
  · rfl
  · cases puts

/-- What is found in the images when the messages are sent. -/
theorem renewingSession_finds :
    ((renewingImage.meet "make").lookupFor (.classObject ⟨37⟩) "make" = some ⟨86⟩ ∧
      answersNested ((renewingImage.meet "make").methodAt ⟨86⟩).behavior = true ∧
      (renewingImage.meet "make").heap.arrays.size = 0) ∧
    ((renewedImage.meet "at:put:").lookupFor (.array ⟨0⟩) "at:put:" = some ⟨62⟩ ∧
      putsElement ((renewedImage.meet "at:put:").methodAt ⟨62⟩).behavior = true) ∧
    (alteredImage.meet "make").lookupFor (.classObject ⟨37⟩) "make" = some ⟨86⟩ ∧
      answersNested ((alteredImage.meet "make").methodAt ⟨86⟩).behavior = true ∧
      (alteredImage.meet "make").heap.arrays.size = 2 := by
  decide +kernel

/-- Wherever the method is run, the array is evaluated. -/
theorem exists_renewing {image : Image}
    (underway : renewingSession.Underway [⟨2, .method ⟨86⟩ [.classObject ⟨37⟩], image⟩])
    (answers : answersNested (image.methodAt ⟨86⟩).behavior = true) :
    ∃ moment : renewingSession.Moment, moment.code = .literal nestedDatum ∧
      moment.result = .ok (.array ⟨image.heap.arrays.size + 1⟩) moment.after ∧
      moment.made = [⟨image.heap.arrays.size⟩, ⟨image.heap.arrays.size + 1⟩] := by
  obtain ⟨span, sites, behavior⟩ := exists_of_answersNested answers
  have opened : (Activation.method ⟨86⟩ [.classObject ⟨37⟩]).opening? image =
      some (.ofMethod ⟨86⟩ (.classObject ⟨37⟩) [] 0,
        [.answer (.literal nestedDatum) span]) := by
    simp only [Activation.opening?, behavior]
    rfl
  have evaluates : Running.EvaluatesAt ⟨2, .method ⟨86⟩ [.classObject ⟨37⟩], image⟩ [0, 0]
      image.heap.frames.next (.literal nestedDatum)
      (image.addFrame (.ofMethod ⟨86⟩ (.classObject ⟨37⟩) [] 0)) :=
    .intro opened rfl
  let start := image.addFrame (.ofMethod ⟨86⟩ (.classObject ⟨37⟩) [] 0)
  let inner := start.addArray #[.integer 2]
  let outer := inner.addArray #[.integer 1, .array start.heap.arrays.next]
  have made : start.arraysSince outer = [start.heap.arrays.next, inner.heap.arrays.next] := by
    have first := (Image.Spares.addArray (fun _ => True) start #[.integer 2]).count
    have second := (Image.Spares.addArray (fun _ => True) inner
      #[.integer 1, .array start.heap.arrays.next]).count
    rw [← Image.arraysSince_append first second, Image.arraysSince_addArray,
      Image.arraysSince_addArray]
    rfl
  have size : inner.heap.arrays.size = image.heap.arrays.size + 1 := Arena.size_push _ _
  have next : inner.heap.arrays.next = ⟨image.heap.arrays.size + 1⟩ := congrArg Ref.mk size
  refine ⟨⟨_, _, _, _, _, _, underway, evaluates⟩, rfl, ?_, ?_⟩
  · rw [← next]
    rfl
  · rw [← next]
    exact made

theorem renewingSession_serves :
    renewingSession.Serves (.send "make" (.classObject ⟨37⟩) []) renewingImage ∧
      renewingSession.Serves (.send "at:put:" (.array ⟨0⟩) [.integer 1, .integer 7])
        renewedImage ∧
      renewingSession.Serves (.send "make" (.classObject ⟨37⟩) []) alteredImage := by
  unfold renewingSession renewingRequests alteredImage renewedImage renewingImage Session.Serves
  simp only [Session.fresh]
  exact ⟨.tail .head, .tail (.tail .head), .tail (.tail (.tail .head))⟩

/-- Something is put into the inner array. -/
theorem renewingSession_puts : ∃ running below,
    renewingSession.Underway (running :: below) ∧ running.Puts ⟨0⟩ := by
  obtain ⟨-, ⟨found, puts⟩, -⟩ := renewingSession_finds
  obtain ⟨-, serves, -⟩ := renewingSession_serves
  let arguments : List Value := [.array ⟨0⟩, .integer 1, .integer 7]
  refine ⟨⟨2, .method ⟨62⟩ arguments, renewedImage.meet "at:put:"⟩, [],
    .first serves rfl (asks_meet_iff.mpr (.send found _)), ?_⟩
  refine ⟨⟨62⟩, arguments, .array .atPut, .integer 7, rfl, ?_, .intro⟩
  dsimp only
  exact eq_of_putsElement puts

/-- The method answers a new array in a new array when it is run again, though something has been
put into the first one. -/
theorem literals_never_aliased_nested :
    ∃ first second : renewingSession.Moment,
      first.made = [⟨0⟩, ⟨1⟩] ∧ first.Renews nestedLiteral (.array ⟨1⟩) ∧
      second.made = [⟨2⟩, ⟨3⟩] ∧ second.Renews nestedLiteral (.array ⟨3⟩) ∧
      ∃ running below, renewingSession.Underway (running :: below) ∧ running.Puts ⟨0⟩ := by
  have admissible : Request.Throughout (.ofBudget 2)
      (fun image request => request.Admissible image) renewingRequests
      (.initial .plain .standard false) := by decide +kernel
  obtain ⟨serves, -, servesAgain⟩ := renewingSession_serves
  obtain ⟨⟨found, answers, none⟩, -, foundAgain, answersAgain, two⟩ := renewingSession_finds
  obtain ⟨first, here, answered, made⟩ :=
    exists_renewing (.first serves rfl (asks_meet_iff.mpr (.send found []))) answers
  obtain ⟨second, there, answeredAgain, madeAgain⟩ :=
    exists_renewing (.first servesAgain rfl (asks_meet_iff.mpr (.send foundAgain []))) answersAgain
  rw [none] at answered made
  rw [two] at answeredAgain madeAgain
  obtain ⟨value, renews⟩ := literals_never_aliased admissible first
    (show nestedLiteral.prepare ⟨.empty, .empty, #[]⟩ = .ok nestedDatum _ from rfl) here
  obtain ⟨valueAgain, renewsAgain⟩ := literals_never_aliased admissible second
    (show nestedLiteral.prepare ⟨.empty, .empty, #[]⟩ = .ok nestedDatum _ from rfl) there
  cases answered.symm.trans renews.answers
  cases answeredAgain.symm.trans renewsAgain.answers
  exact ⟨first, second, made, renews, madeAgain, renewsAgain, renewingSession_puts⟩

end MessageMachine
