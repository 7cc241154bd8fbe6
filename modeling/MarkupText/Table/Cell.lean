import MarkupText.Span
import MarkupText.Text.Width

/-!
# Rendered cells

A `Cell` is the text of one table cell cut into lines, each with the spans on it. `Cell.ofText` cuts
spans at the ends of lines and, on request, pads every line to the width of the column.
-/

namespace MarkupText

/-- A line with its spans, which count from its start. -/
structure CellLine where
  text : Text
  spans : List Span
deriving BEq

/-- A rendered cell. -/
structure Cell where
  /-- Width of the widest line before padding. -/
  naturalWidth : Nat
  lines : List CellLine
  /-- The background of the cell, which its padding takes too. -/
  background : Option Color
deriving BEq

namespace Cell

/-- The mark of blank cells with a background. -/
def backgroundMark (c : Color) : Mark := .colors none (some c)

/-- The spans on the line at `start`, of `size` bytes. -/
def lineSpans (spans : List Span) (start size : Nat) : List Span :=
  (spans.filter (·.meets start (start + size))).map fun a =>
    let a := a.clamp start (start + size)
    { a with start := a.start - start, stop := a.stop - start }

/-- Lines with their spans; the first line is at `start`. -/
def cutLines (spans : List Span) (start : Nat) : List Text → List CellLine
  | [] => []
  | t :: ts => ⟨t, lineSpans spans start t.size⟩ :: cutLines spans (start + t.size + 1) ts

/-- The line filled up with spaces to `width` columns. -/
def pad (width : Nat) (background : Option Color) (l : CellLine) : CellLine :=
  let n := width - l.text.width
  if n = 0 then l
  else
    { text := l.text ++ Text.spaces n
      spans := l.spans ++ (background.map fun c =>
        ⟨l.text.size, l.text.size + n, backgroundMark c⟩).toList }

/-- The cell of a finished text, padded to `width` columns if `fill` is set. -/
def ofText (t : Text) (spans : List Span) (width : Nat) (fill : Bool) (background : Option Color) :
    Cell :=
  let lines := if t.isEmpty then [] else cutLines spans 0 t.rows
  { naturalWidth := (lines.map fun l => l.text.width).foldl max 0
    lines := if fill then lines.map (pad width background) else lines
    background }

end Cell
end MarkupText
