import SlotControl.SortedMap

/-!
Cells that several names share: a change through one name shows under all of them, and a cell that
is being changed cannot be borrowed a second time.
-/

namespace SlotControl

/-- How a cell is borrowed. -/
inductive Access where
  | read
  | write
  deriving DecidableEq

/-- Cells with values of one kind, and the names that refer to them. -/
structure SharedCells (α : Type) where
  /-- The value of each cell, in the order in which the cells were made. -/
  values : List α
  names : SortedMap String Nat

namespace SharedCells

variable {α : Type}

/-- There are no cells. -/
def empty : SharedCells α := ⟨[], .empty⟩

/-- Makes a new cell and lets the name refer to it. -/
def wrap (cells : SharedCells α) (name : String) (value : α) : SharedCells α :=
  ⟨cells.values ++ [value], cells.names.insert name cells.values.length⟩

/-- Lets a name refer to the cell of another name; an unknown one is an error. -/
def share? (cells : SharedCells α) (source name : String) : Option (SharedCells α) :=
  (cells.names.get? source).map fun cell => { cells with names := cells.names.insert name cell }

/-- The value that a name refers to. -/
def get? (cells : SharedCells α) (name : String) : Option α :=
  (cells.names.get? name).bind (cells.values[·]?)

/-- Changes the value that a name refers to. -/
def modify? (cells : SharedCells α) (name : String) (f : α → α) : Option (SharedCells α) :=
  (cells.names.get? name).map fun cell => { cells with values := cells.values.modify cell f }

/-- Both names refer to one cell. Values do not count. -/
def same? (cells : SharedCells α) (a b : String) : Option Bool := do
  return (← cells.names.get? a) == (← cells.names.get? b)

/-- Borrowing both names at once fails: they refer to one cell, and one of them wants to change it. -/
def conflict? (cells : SharedCells α) (a b : String) (first second : Access) : Option Bool :=
  (cells.same? a b).map fun same => same && !(first == .read && second == .read)

end SharedCells

end SlotControl
