import MarkupText.Table.Cell

/-!
# Remembered cells

A table renders each cell several times and nested tables multiply that, so rendered cells are kept
under a key that determines them. The cache counts how often a key was found.
-/

namespace MarkupText

/-- Cells by key, with the number of look-ups that found one and that did not. -/
structure Cache (κ : Type) where
  entries : List (κ × Cell) := []
  hits : Nat := 0
  misses : Nat := 0

namespace Cache
variable {κ : Type}

/-- Number of cells. -/
def size (c : Cache κ) : Nat := c.entries.length

/-- The cache without cells and with its counts at zero. -/
def clear (_ : Cache κ) : Cache κ := {}

variable [DecidableEq κ]

/-- The cell of a key, without counting. -/
def find? (c : Cache κ) (key : κ) : Option Cell := (c.entries.find? (·.1 = key)).map (·.2)

/-- Looks a cell up and counts. -/
def lookup (c : Cache κ) (key : κ) : Option Cell × Cache κ :=
  match c.find? key with
  | some cell => (some cell, { c with hits := c.hits + 1 })
  | none => (none, { c with misses := c.misses + 1 })

/-- Keeps a cell in place of any other of the same key. -/
def store (c : Cache κ) (key : κ) (cell : Cell) : Cache κ :=
  { c with entries := (key, cell) :: c.entries.filter (·.1 ≠ key) }

end Cache
end MarkupText
