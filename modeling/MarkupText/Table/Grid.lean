import MarkupText.Style.Percentage
import MarkupText.Tree.Basic
import MarkupText.Warning

/-!
# The grid of a table

`Grid.collect` finds the caption, the rows and the cells of a table element. Rows of `thead` come
first and rows of `tfoot` last; every row is filled up with missing cells to the same number of
columns, and there is at least one row and one column.
-/

namespace MarkupText

/-- A row element, if there is one, with its cells; a cell may be missing. -/
structure GridRow where
  row : Option NodeId
  cells : List (Option NodeId)

/-- The rows of a table, all of `columns` cells. -/
structure Grid where
  caption : Option NodeId
  rows : List GridRow
  columns : Nat

namespace Grid

/-- The children of a node with one of some tags. -/
def childrenWith (t : Tree) (id : NodeId) (p : Tag → Bool) : List NodeId :=
  (t.children id).filter fun c => ((t.tag? c).map p).getD false

/-- The rows of a table in the groups chosen by `p`. -/
def rowsOf (t : Tree) (table : NodeId) (p : Tag → Bool) : List NodeId :=
  (childrenWith t table p).flatMap fun c =>
    if t.tag? c = some .tr then [c] else childrenWith t c (· = .tr)

/-- The reports about one cell that asks to span more than its place. -/
def spanWarnings (t : Tree) (cell : NodeId) : List Warning :=
  ["colspan", "rowspan"].filterMap fun name =>
    match (t.element? cell).bind (·.attr? name) with
    | some v =>
      if v.trim = ['1'] then none
      else some
        { component := "Table".toList
          message := name.toList ++ " is not supported; cell spans one".toList }
    | none => none

/-- The cells of a row element. -/
def cellsOf (t : Tree) (row : NodeId) : List NodeId := childrenWith t row Tag.isCell

/-- The grid of a table element, and reports about its cells. -/
def collect (t : Tree) (table : NodeId) : Grid × List Warning :=
  let rows := rowsOf t table (· = .thead) ++ rowsOf t table (fun g => g = .tr || g = .tbody) ++
    rowsOf t table (· = .tfoot)
  let cells := rows.map (cellsOf t)
  let columns := max 1 ((cells.map List.length).foldl max 0)
  let filled (row : Option NodeId) (cs : List NodeId) : GridRow :=
    ⟨row, cs.map some ++ List.replicate (columns - cs.length) none⟩
  let gridRows :=
    if rows.isEmpty then [filled none []] else rows.zipWith (fun r cs => filled (some r) cs) cells
  ({ caption := (childrenWith t table (· = .caption)).head?, rows := gridRows, columns },
    cells.flatMap fun cs => cs.flatMap (spanWarnings t))

/-- The cells of one column. -/
def column (g : Grid) (i : Nat) : List NodeId := g.rows.filterMap fun r => (r.cells[i]?).join

/-- The relative widths of the columns: the first percentage given in a column, else one. -/
def weights (g : Grid) (t : Tree) : List Float :=
  (List.range g.columns).map fun i =>
    ((g.column i).findSome? fun c =>
      ((t.element? c).bind (·.attr? "width")).bind readPercentage?).getD 1

/-- The cells in the order of the rows. -/
def cellNodes (g : Grid) : List NodeId := g.rows.flatMap fun r => r.cells.filterMap id

end Grid
end MarkupText
