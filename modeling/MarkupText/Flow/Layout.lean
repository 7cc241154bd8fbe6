/-!
# Layout in force

`Layout` is what a block rule changes for its content and puts back afterwards; a table cell starts
from `Layout.forCell`.
-/

namespace MarkupText

/-- How text is laid out. -/
inductive FoldMode where
  /-- Blanks collapse and lines are wrapped. -/
  | wrap
  /-- Blanks and newlines are kept and nothing is wrapped. -/
  | verbatim
deriving DecidableEq

/-- The label that the next list item gets. -/
inductive ListLabel where
  | none
  | bullet
  | number (n : Nat)
deriving DecidableEq

/-- What was written last. -/
inductive FlowKind where
  | text
  /-- An image placeholder; text after it starts a new line. -/
  | image
deriving DecidableEq

/-- The layout in force at one point of the output. -/
structure Layout where
  /-- Columns to wrap at. -/
  width : Nat
  /-- Columns in front of each new line. -/
  indentation : Nat := 0
  fold : FoldMode := .wrap
  list : ListLabel := .none
  /-- Number of enclosing tables. -/
  tableDepth : Nat := 0
  /-- Images are held back. -/
  inhibitImages : Bool := false
  kind : FlowKind := .text
deriving DecidableEq

/-- The layout of a table cell of the given width; of the surroundings only the folding mode and the
table depth matter. -/
def Layout.forCell (l : Layout) (width : Nat) : Layout :=
  { width, fold := l.fold, tableDepth := l.tableDepth + 1, inhibitImages := true }

end MarkupText
