import MarkupText.Buffer
import MarkupText.Flow.Layout
import MarkupText.LineBreak.Search

/-!
# Inline flow

`Page.insert` writes one piece of text at the end of a page. In wrap mode the text arrives word by
word, each after one space where the text has blanks, and the line is folded at once when a word
makes it too wide; in verbatim mode every line is kept and only indented.
-/

namespace MarkupText

/-- A buffer and the layout in force at its end. -/
structure Page where
  buffer : Buffer := {}
  layout : Layout

namespace Page
open LineBreak

/-- The page after an operation on its buffer. -/
def onBuffer (f : Buffer → Buffer) (p : Page) : Page := { p with buffer := f p.buffer }

/-- The page after a change of its layout. -/
def onLayout (f : Layout → Layout) (p : Page) : Page := { p with layout := f p.layout }

@[simp] theorem layout_onBuffer (f : Buffer → Buffer) (p : Page) :
    (p.onBuffer f).layout = p.layout := rfl

@[simp] theorem buffer_onLayout (f : Layout → Layout) (p : Page) :
    (p.onLayout f).buffer = p.buffer := rfl

/-- Writes the indentation on an empty line. -/
def indent (p : Page) : Page :=
  if p.buffer.currentLine.isEmpty then p.onBuffer (·.push (Text.spaces p.layout.indentation)) else p

/-- Writes a space, unless it would follow the start of the line or another space. -/
def space (p : Page) : Page :=
  if p.buffer.atLineStart || p.buffer.column ≤ p.layout.indentation ||
      p.buffer.lastChar == some ' ' then p
  else p.onBuffer (·.push [' '])

/-- Whether no space belongs between two characters. -/
def joins (rules : Rules) (before after : Char) : Bool :=
  (rules.spaceless before && rules.spaceless after) ||
    (rules.breakable before && rules.noEnd before) || (rules.breakable after && rules.noStart after)

/-- Whether the line ends with a space that does not belong in front of `next`. -/
def spaceUnwanted (rules : Rules) (p : Page) (next : Char) : Bool :=
  match p.buffer.currentLine.dropLast? ' ' with
  | none => false
  | some line =>
    if line.width ≤ p.layout.indentation then false
    else match line.getLast? with
      | none => false
      | some before => joins rules before next

/-- How a line is split at a cut: the line kept and the line that follows, with no spaces on either
side of the cut. -/
def splitLine (line : Text) (pos : Nat) : Text × Text :=
  (Text.dropEndWhile (· == ' ') (line.take pos), (line.drop pos).dropWhile (· == ' '))

/-- Splits the line being written until it fits, has no cut left, or stops getting narrower. -/
def foldLine (rules : Rules) (indentation width : Nat) (b : Buffer) : Buffer :=
  let line := b.currentLine
  if b.column ≤ width then b
  else match findBreak rules line indentation width with
    | none => b
    | some pos =>
      let (left, right) := splitLine line pos
      if right.isEmpty then b.trimSpaces
      else
        let b' := b.splice (b.lineStart + left.size) (line.size - left.size - right.size)
          ('\n' :: Text.spaces indentation)
        if b'.column < b.column then foldLine rules indentation width b' else b'
termination_by b.column

/-- Appends one word, after a space if `spaceBefore` and one belongs there. -/
def placeWord (rules : Rules) (p : Page) (spaceBefore : Bool) (word : Text) : Page :=
  let p := p.indent
  let p := if spaceBefore then p.space else p
  let p := match word with
    | [] => p
    | c :: _ =>
      if p.spaceUnwanted rules c then p.onBuffer fun b => b.splice (b.size - 1) 1 [] else p
  p.onBuffer fun b => foldLine rules p.layout.indentation p.layout.width (b.push word)

/-- Appends words that follow one another. -/
def placeWords (rules : Rules) (p : Page) (spaceBefore : Bool) : List Text → Page
  | [] => p
  | w :: ws => placeWords rules (p.placeWord rules spaceBefore w) true ws

/-- Appends text with its blanks collapsed, wrapping at the width. -/
def insertWrapped (rules : Rules) (p : Page) (t : Text) : Page :=
  let p := p.placeWords rules ((t.head?.map isBlank).getD false) t.words
  if (t.getLast?.map isBlank).getD false then p.space else p

/-- Appends one line of verbatim text, indented at the start of a line. -/
def pushRow (p : Page) (row : Text) : Page :=
  if row.isEmpty then p else p.indent.onBuffer (·.push row)

/-- Appends text as it is, each of its non-empty lines indented. -/
def insertVerbatim (p : Page) (t : Text) : Page :=
  match t.rows with
  | [] => p
  | row :: rows =>
    rows.foldl (fun p row => (p.onBuffer (·.push ['\n'])).pushRow row) (p.pushRow row)

/-- Appends a piece of text. After an image placeholder anything visible starts a new line. -/
def insert (rules : Rules) (p : Page) (t : Text) : Page :=
  if t.isEmpty then p
  else
    let p := if p.layout.kind = .image && !t.blank && !p.buffer.atLineStart then
        p.onBuffer (·.newline)
      else p
    let p := match p.layout.fold with
      | .verbatim => p.insertVerbatim t
      | .wrap => p.insertWrapped rules t
    if t.blank then p else p.onLayout ({ · with kind := .text })

end Page
end MarkupText
