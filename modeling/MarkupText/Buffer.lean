import MarkupText.Span
import MarkupText.Text.Width

/-!
# The output buffer

`Buffer` collects the output text with its spans. Characters that have been written change
only through `splice`, which moves spans, open regions and the end of the last list label
along, so all of them keep referring to the same characters. `ensureNewline` and `ensureParagraph`
end the current line only where that is needed.
-/

namespace MarkupText

/-- Text under construction. -/
structure Buffer where
  text : Text := []
  spans : List Span := []
  /-- Where each open region starts, innermost first. -/
  regions : List Nat := []
  /-- The end of the list label written last; a line that ends there counts as fresh. -/
  labelEnd : Option Nat := none

namespace Buffer

/-- Length in bytes. -/
def size (b : Buffer) : Nat := b.text.size

/-- Appends text as it is. -/
def push (b : Buffer) (t : Text) : Buffer := { b with text := b.text ++ t }

/-- Appends a list label. -/
def pushLabel (b : Buffer) (t : Text) : Buffer :=
  let b := b.push t
  { b with labelEnd := some b.size }

/-- Records a mark over `[start, stop)`, unless the range is empty or exceeds the text. -/
def annotate (b : Buffer) (start stop : Nat) (mark : Mark) : Buffer :=
  if start < stop ∧ stop ≤ b.size then
    { b with spans := b.spans ++ [⟨start, stop, mark⟩] }
  else b

/-- Records a span under the same condition. -/
def add (b : Buffer) (a : Span) : Buffer := b.annotate a.start a.stop a.mark

/-- Opens a region at the end of the text. -/
def openRegion (b : Buffer) : Buffer := { b with regions := b.size :: b.regions }

/-- Closes the innermost region and tells where it starts; with none open, at the end. -/
def closeRegion (b : Buffer) : Nat × Buffer :=
  match b.regions with
  | [] => (b.size, b)
  | p :: ps => (min p b.size, { b with regions := ps })

/-- Replaces `removed` bytes at `pos`, or as many as there are. -/
def splice (b : Buffer) (pos removed : Nat) (insert : Text) : Buffer :=
  let removed := min (pos + removed) b.size - pos
  { text := b.text.splice pos removed insert
    spans := b.spans.map (·.edit pos removed insert.size)
    regions := b.regions.map (movedStart pos removed insert.size)
    labelEnd := b.labelEnd.map (movedStop pos removed insert.size) }

/-- The line being written. -/
def currentLine (b : Buffer) : Text := b.text.lastRow

/-- Where the line being written starts. -/
def lineStart (b : Buffer) : Nat := b.size - b.currentLine.size

/-- Width of the line being written. -/
def column (b : Buffer) : Nat := b.currentLine.width

/-- Whether the line being written holds nothing but spaces. -/
def atLineStart (b : Buffer) : Bool := b.currentLine.all (· == ' ')

/-- Whether a list label was just written. -/
def atLabelEnd (b : Buffer) : Bool := b.labelEnd == some b.size

/-- The character written last. -/
def lastChar (b : Buffer) : Option Char := b.text.getLast?

/-- Drops the spaces at the end of the line being written. -/
def trimSpaces (b : Buffer) : Buffer :=
  let n := (b.text.reverse.takeWhile (· == ' ')).length
  if n = 0 then b else b.splice (b.size - n) n []

/-- Ends the line. -/
def newline (b : Buffer) : Buffer := b.trimSpaces.push ['\n']

/-- Ends the line unless nothing or only a list label stands on it. -/
def ensureNewline (b : Buffer) : Buffer :=
  if b.atLabelEnd then b
  else if b.atLineStart then b.trimSpaces
  else b.newline

/-- Ends the line and leaves one blank line, except at the start of the text and after a list
label. -/
def ensureParagraph (b : Buffer) : Buffer :=
  if b.atLabelEnd then b
  else
    let b := if b.atLineStart then b.trimSpaces else b.newline
    if b.text.isEmpty || ['\n', '\n'].isSuffixOf b.text then b else b.push ['\n']

/-- The text without blanks at its end, and the spans cut to it. -/
def finish (b : Buffer) : Text × List Span :=
  let text := b.text.dropEndWhile isBlank
  let cut := b.spans.map fun a => { a with stop := min a.stop text.size }
  (text, cut.filter fun a => a.start < a.stop)

/-- The characters of `[start, stop)` without the spaces and newlines around them, as a range;
`none` if nothing else is there. -/
def visibleRange (b : Buffer) (start stop : Nat) : Option (Nat × Nat) := do
  let t ← b.text.slice? start stop
  let skip (c : Char) : Bool := c == ' ' || c == '\n'
  let lead := (t.takeWhile skip).length
  let trail := (t.reverse.takeWhile skip).length
  if lead + trail < t.size then some (start + lead, stop - trail) else none

@[simp] theorem text_push (b : Buffer) (t : Text) : (b.push t).text = b.text ++ t := rfl

@[simp] theorem spans_push (b : Buffer) (t : Text) : (b.push t).spans = b.spans := rfl

@[simp] theorem size_push (b : Buffer) (t : Text) : (b.push t).size = b.size + t.size :=
  Text.size_append b.text t

@[simp] theorem text_annotate (b : Buffer) (start stop : Nat) (mark : Mark) :
    (b.annotate start stop mark).text = b.text := by
  unfold annotate; split <;> rfl

@[simp] theorem text_add (b : Buffer) (a : Span) : (b.add a).text = b.text := text_annotate ..

@[simp] theorem text_openRegion (b : Buffer) : b.openRegion.text = b.text := rfl

@[simp] theorem text_closeRegion (b : Buffer) : b.closeRegion.2.text = b.text := by
  unfold closeRegion; split <;> rfl

/-- An annotation is recorded over a range of the text and over nothing else. -/
theorem mem_spans_annotate {b : Buffer} {start stop : Nat} {mark : Mark} {a : Span} :
    a ∈ (b.annotate start stop mark).spans ↔
      a ∈ b.spans ∨ (a = ⟨start, stop, mark⟩ ∧ start < stop ∧ stop ≤ b.size) := by
  unfold annotate
  split
  · rename_i h; simp [h]
  · rename_i h
    exact ⟨.inl, fun h' => h'.elim id fun h' => absurd h'.2 h⟩

end Buffer
end MarkupText
