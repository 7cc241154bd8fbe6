import MarkupText.Render.Rules
import MarkupText.Table.Grid
import MarkupText.Table.Widths
import MarkupText.Tree.Walk

/-!
# Table layout

How wide and high a cell is shows only once its text is wrapped, so widths are negotiated by trial:
widths are suggested by weight, every cell is rendered at its suggested width and once more with all
the room it could want, the widths are reconciled with what was used, and the cells are rendered for
good. When they turn out wider than their columns the columns are widened a few more times. Images
inside cells come after the table.

`visit` renders a node that is a child of the table.
-/

namespace MarkupText.Renderer
open Table

/-- Width at which a cell has all the room it could want. -/
def naturalTrialWidth : Nat := 10000

/-- How often columns are widened to what their cells turn out to need. -/
def maxWidenings : Nat := 3

/-- Puts the colors of a row in force; the first result tells whether there are any. -/
def pushRow (s : Scene) (row : Option NodeId) (r : Renderer) : Bool × Renderer :=
  match row.bind s.tree.element? with
  | none => (false, r)
  | some e =>
    let (frame, ws) := e.frame
    let r := r.warn ws
    if frame.isEmpty then (false, r) else (true, { r with styles := frame :: r.styles })

def popRow (pushed : Bool) (r : Renderer) : Renderer :=
  if pushed then { r with styles := r.styles.tail } else r

/-- The key of a cell at this point of the descent. -/
def cellKey (s : Scene) (cell : Option NodeId) (width : Nat) (fill : Bool) (r : Renderer) :
    CellKey :=
  { width, fill, verbatim := r.layout.fold = .verbatim, content := cell.map s.tree.signature
    style := r.styles }

/-- Renders a cell on a page of its own. The nodes above it count as entered. -/
def freshCell (s : Scene) (visit : NodeId → Renderer → Renderer) (cell : Option NodeId)
    (width : Nat) (fill : Bool) (r : Renderer) : Cell × Renderer :=
  let (frame, ws) := ((cell.bind s.tree.element?).map Element.frame).getD ({}, [])
  let background := StyleStack.resolve (frame :: r.styles) |>.background
  let child : Renderer :=
    { page := { layout := r.layout.forCell width }, styles := r.styles, path := r.path
      visited := r.path, cache := r.cache, log := r.log.addAll ws }
  let child := match cell with
    | some id => visit id child
    | none => child
  let (text, spans) := child.buffer.finish
  (Cell.ofText text spans width fill background, { r with cache := child.cache, log := child.log })

/-- Renders a cell, or takes it from the cache. -/
def cachedCell (s : Scene) (visit : NodeId → Renderer → Renderer) (cell : Option NodeId)
    (width : Nat) (fill : Bool) (r : Renderer) : Cell × Renderer :=
  let key := cellKey s cell width fill r
  match r.cache.lookup key with
  | (some found, cache) => (found, { r with cache })
  | (none, cache) =>
    let (rendered, r) := freshCell s visit cell width fill { r with cache }
    (rendered, { r with cache := r.cache.store key rendered })

/-- The cell as the scene wants cells rendered. -/
def renderCell (s : Scene) (visit : NodeId → Renderer → Renderer) (fill : Bool)
    (cell : Option NodeId) (width : Nat) (r : Renderer) : Cell × Renderer :=
  if s.reuseCells then cachedCell s visit cell width fill r
  else freshCell s visit cell width fill r

/-- Renders the cells of a row from left to right. -/
def renderCells (s : Scene) (visit : NodeId → Renderer → Renderer) (fill : Bool) :
    List (Option NodeId × Nat) → Renderer → List Cell × Renderer
  | [], r => ([], r)
  | (cell, width) :: rest, r =>
    let (c, r) := renderCell s visit fill cell width r
    let (cs, r) := renderCells s visit fill rest r
    (c :: cs, r)

/-- Renders all rows at the given column widths. -/
def renderRows (s : Scene) (visit : NodeId → Renderer → Renderer) (fill : Bool)
    (widths : List Nat) : List GridRow → Renderer → List (List Cell) × Renderer
  | [], r => ([], r)
  | row :: rows, r =>
    let (pushed, r) := pushRow s row.row r
    let (cells, r) := renderCells s visit fill (row.cells.zip widths) r
    let (rest, r) := renderRows s visit fill widths rows (popRow pushed r)
    (cells :: rest, r)

/-- The widest line in each of `columns` columns. -/
def extents (columns : Nat) (rows : List (List Cell)) : List Nat :=
  rows.foldl (fun widest cells => widest.zipWith (fun w c => max w c.naturalWidth) cells)
    (List.replicate columns 0)

/-- Renders the rows for good, widening columns at most `passes` times where a cell is wider. -/
def finalRows (s : Scene) (visit : NodeId → Renderer → Renderer) (g : Grid) :
    (passes : Nat) → (widths : List Nat) → Renderer → List Nat × List (List Cell) × Renderer
  | 0, widths, r =>
    let (rows, r) := renderRows s visit true widths g.rows r
    (widths, rows, r)
  | passes + 1, widths, r =>
    let (rows, r) := renderRows s visit true widths g.rows r
    let needed := extents g.columns rows
    if (needed.zip widths).all fun (n, w) => n ≤ w then (widths, rows, r)
    else finalRows s visit g passes (widths.zipWith max needed) r

/-- A line of the grid between rows. -/
def gridRuler (indentation : Nat) (widths : List Nat) : Text :=
  Text.spaces indentation ++ '+' :: widths.flatMap fun w => List.replicate w '-' ++ ['+']

/-- Writes line `i` of a cell and the separator after it; below the last line of the cell, blanks.
-/
def writeCellLine (i : Nat) (b : Buffer) (cell : Cell) (width : Nat) : Buffer :=
  let base := b.size
  let b := match cell.lines[i]? with
    | some l => l.spans.foldl (fun (b : Buffer) (a : Span) => b.add (a.shift base)) (b.push l.text)
    | none =>
      let b := b.push (Text.spaces width)
      match cell.background with
      | some c => b.annotate base b.size (Cell.backgroundMark c)
      | none => b
  b.push ['|']

/-- Writes line `i` of a row. -/
def writeRowLine (indentation : Nat) (widths : List Nat) (cells : List Cell) (b : Buffer)
    (i : Nat) : Buffer :=
  let b := b.push (Text.spaces indentation ++ ['|'])
  ((cells.zip widths).foldl (fun b (c, w) => writeCellLine i b c w) b).push ['\n']

/-- Writes the lines of a row, as many as its highest cell has and at least one. -/
def writeRow (indentation : Nat) (widths : List Nat) (cells : List Cell) (b : Buffer) : Buffer :=
  let height := max 1 ((cells.map (·.lines.length)).foldl max 0)
  (List.range height).foldl (writeRowLine indentation widths cells) b

/-- Writes the grid, and lays the colors of each row over it. -/
def writeGrid (s : Scene) (widths : List Nat) (rows : List (GridRow × List Cell)) (r : Renderer) :
    Renderer :=
  let indentation := r.layout.indentation
  let rule := gridRuler indentation widths ++ ['\n']
  let r := rows.foldl (fun r (row, cells) =>
    let (pushed, r) := pushRow s row.row (r.onBuffer (·.push rule))
    let start := r.buffer.size
    let r := r.onBuffer (writeRow indentation widths cells)
    let colors := r.styles.resolve
    if pushed then (popRow pushed r).colorize start colors else r) r
  r.onBuffer (·.push rule)

/-- The images to be fetched inside the cells of a table, each once. -/
def deferredImages (s : Scene) (g : Grid) : List NodeId :=
  (g.cellNodes.flatMap s.tree.descendants).eraseDups.filter fun id =>
    match s.tree.element? id with
    | some e => e.tag = .img && (fetchableSource? s e).isSome
    | none => false

/-- A table: its caption, its grid, and unless it is inside another table the images of its cells.
-/
def table (s : Scene) (visit : NodeId → Renderer → Renderer) (id : NodeId) (r : Renderer) :
    Renderer :=
  let (g, ws) := Grid.collect s.tree id
  let r := r.warn ws
  let r := match g.caption with
    | some c => (s.tree.children c).foldl (fun r id => visit id r) (r.onBuffer (·.ensureNewline))
    | none => r
  let r := r.onBuffer (·.ensureNewline)
  let suggested := prorate (g.weights s.tree) r.layout.width r.layout.indentation
  let (rows, r) := renderRows s visit false suggested g.rows r
  let used := extents g.columns rows
  let (rows, r) := renderRows s visit false (List.replicate g.columns naturalTrialWidth) g.rows r
  let natural := extents g.columns rows
  let (widths, rows, r) := finalRows s visit g maxWidenings (reconcile suggested used natural) r
  let r := (writeGrid s widths (g.rows.zip rows) r).onLayout ({ · with kind := .text })
  if r.layout.tableDepth = 0 then (deferredImages s g).foldl (fun r id => visit id r) r else r

end MarkupText.Renderer
