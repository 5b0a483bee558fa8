/-!
# Arenas

Everything with an identity lives in an arena: a growing table in which a thing, once allocated,
keeps its place for good.  References are positions tagged with the arena that they belong to, so
that a class is never looked up among the frames.  Two things are the same thing exactly when their
references are equal.
-/

namespace MessageMachine

/-- The arenas of the machine. -/
inductive Region
  | classes
  | shapes
  | methods
  | arrays
  | objects
  | blocks
  | frames
  | callSites
  | fieldSites
  | controlSites
deriving DecidableEq, Repr

/-- A reference to a cell of one arena. -/
structure Ref (region : Region) where
  index : Nat
deriving DecidableEq, Repr

abbrev ClassRef := Ref .classes
abbrev ShapeRef := Ref .shapes
abbrev MethodRef := Ref .methods
abbrev ArrayRef := Ref .arrays
abbrev ObjectRef := Ref .objects
abbrev BlockRef := Ref .blocks
abbrev FrameRef := Ref .frames
abbrev CallSiteRef := Ref .callSites
abbrev FieldSiteRef := Ref .fieldSites
abbrev ControlSiteRef := Ref .controlSites

instance (region : Region) : Inhabited (Ref region) :=
  ⟨⟨0⟩⟩

/-- A table of cells that only grows. -/
structure Arena (region : Region) (Cell : Type) where
  cells : Array Cell

namespace Arena

variable {region : Region} {Cell : Type}

/-- The arena without cells. -/
def empty : Arena region Cell where
  cells := #[]

/-- The number of cells. -/
def size (arena : Arena region Cell) : Nat :=
  arena.cells.size

/-- The reference that the next allocation answers. -/
def next (arena : Arena region Cell) : Ref region :=
  ⟨arena.size⟩

/-- The cell of a reference, if it was allocated. -/
def get? (arena : Arena region Cell) (ref : Ref region) : Option Cell :=
  arena.cells[ref.index]?

/-- The cell of a reference; the default cell for a reference that was never allocated. -/
def get [Inhabited Cell] (arena : Arena region Cell) (ref : Ref region) : Cell :=
  arena.cells.getD ref.index default

/-- Add a cell at the end. -/
def push (arena : Arena region Cell) (cell : Cell) : Arena region Cell where
  cells := arena.cells.push cell

/-- Change one cell. -/
def modify (arena : Arena region Cell) (ref : Ref region) (change : Cell → Cell) :
    Arena region Cell where
  cells := arena.cells.modify ref.index change

/-- Replace one cell. -/
def set (arena : Arena region Cell) (ref : Ref region) (cell : Cell) : Arena region Cell where
  cells := arena.cells.setIfInBounds ref.index cell

@[simp] theorem size_push (arena : Arena region Cell) (cell : Cell) :
    (arena.push cell).size = arena.size + 1 := by
  simp [push, size]

@[simp] theorem size_modify (arena : Arena region Cell) (ref : Ref region)
    (change : Cell → Cell) : (arena.modify ref change).size = arena.size := by
  simp [modify, size]

@[simp] theorem size_set (arena : Arena region Cell) (ref : Ref region) (cell : Cell) :
    (arena.set ref cell).size = arena.size := by
  simp [set, size]

/-- A cell just added is found at the reference announced for it. -/
theorem get?_push_next (arena : Arena region Cell) (cell : Cell) :
    (arena.push cell).get? arena.next = some cell := by
  simp [push, get?, next, size]

/-- Adding a cell leaves the older ones alone. -/
theorem get?_push_of_lt (arena : Arena region Cell) (cell : Cell) (ref : Ref region)
    (older : ref.index < arena.size) : (arena.push cell).get? ref = arena.get? ref := by
  simp only [size] at older
  simp [push, get?, Array.getElem?_push, Nat.ne_of_lt older]

/-- Changing a cell changes that cell. -/
theorem get?_modify_same (arena : Arena region Cell) (ref : Ref region)
    (change : Cell → Cell) :
    (arena.modify ref change).get? ref = (arena.get? ref).map change := by
  simp [modify, get?, Array.getElem?_modify]

/-- Changing a cell leaves the others alone. -/
theorem get?_modify_of_ne (arena : Arena region Cell) (ref other : Ref region)
    (change : Cell → Cell) (different : other ≠ ref) :
    (arena.modify ref change).get? other = arena.get? other := by
  have apart : ref.index ≠ other.index := by
    intro same
    apply different
    cases other
    cases ref
    simp_all
  simp [modify, get?, Array.getElem?_modify, apart]

/-- The total lookup agrees with the partial one. -/
theorem get_eq_getD [Inhabited Cell] (arena : Arena region Cell) (ref : Ref region) :
    arena.get ref = (arena.get? ref).getD default := by
  simp [get, get?, Array.getD_eq_getD_getElem?]

end Arena

end MessageMachine
