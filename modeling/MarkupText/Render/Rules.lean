import MarkupText.Decimal.Digits
import MarkupText.Render.Renderer
import MarkupText.Render.Role

/-!
# Rules of elements

One function for each role that is not a table. A rule shows the children of its element through
`body`, and puts back every part of the layout that it changes.
-/

namespace MarkupText.Renderer

/-- Extra indentation of quotes and definitions. -/
def blockIndent : Nat := 4

/-- The bound of numbers in attributes and of list labels. -/
def numberBound : Nat := pow2 32

/-- Runs `body` between blank lines. -/
def inParagraph (body : Renderer → Renderer) (r : Renderer) : Renderer :=
  (body (r.onBuffer (·.ensureParagraph))).onBuffer (·.ensureParagraph)

/-- Runs `body` on lines of its own. -/
def inBlock (body : Renderer → Renderer) (r : Renderer) : Renderer :=
  (body (r.onBuffer (·.ensureNewline))).onBuffer (·.ensureNewline)

/-- Ends the line. -/
def lineBreak (r : Renderer) : Renderer :=
  (r.onBuffer (·.newline)).onLayout ({ · with kind := .text })

/-- Writes a ruler on a line of its own, from the indentation to the width. -/
def ruler (r : Renderer) : Renderer :=
  let indentation := r.layout.indentation
  let dashes := max (r.layout.width - indentation) 1
  let write (b : Buffer) : Buffer :=
    let b := b.ensureNewline.push (Text.spaces indentation)
    let start := b.size
    let b := b.push (List.replicate dashes '-')
    (b.annotate start b.size .ruler).newline
  (r.onBuffer write).onLayout ({ · with kind := .text })

/-- A link to the `href` of an element, if it has one. -/
def link (e : Element) (body : Renderer → Renderer) (r : Renderer) : Renderer :=
  match e.filledAttr? "href" with
  | some href => r.region (.link href.trim) body
  | none => body r

/-- The source of an image to be fetched: one that is given and not blocked. -/
def fetchableSource? (s : Scene) (e : Element) : Option Text :=
  ((e.filledAttr? "src").map Text.trim).filter (! s.options.isBlocked ·)

/-- A dimension of an image, if it is a whole number. -/
def dimension? (e : Element) (name : String) : Option Nat :=
  (e.attr? name).bind fun v => readNat? numberBound v.trim

/-- The text that stands for an image. -/
def placeholder (alt : Text) : Text := if alt.isEmpty then ['*'] else alt

/-- Shows an image: a placeholder with a request, or the alternative text if it is not fetched.
Where images are held back, those to be fetched leave nothing. -/
def image (s : Scene) (e : Element) (r : Renderer) : Renderer :=
  let alt := ((e.attr? "alt").map Text.trim).getD []
  match fetchableSource? s e with
  | none => r.insertText s alt
  | some source =>
    if r.layout.inhibitImages then r
    else
      let (start, r) :=
        ((r.onBuffer (·.openRegion)).insertText s (placeholder alt)).closeRegion
      match r.buffer.visibleRange start r.buffer.size with
      | none => r
      | some (start, stop) =>
        let request : ImageRequest :=
          { token := min r.images.length (numberBound - 1), source, alt
            widthHint := dimension? e "width", heightHint := dimension? e "height"
            maxProportion := s.options.maxImageProportion }
        ({ r with images := r.images ++ [request] }.onBuffer
          (·.annotate start stop (.image request))).onLayout ({ · with kind := .image })

/-- Shows a label that links to the source of sound or film, or the children if there is none. -/
def media (s : Scene) (label : String) (e : Element) (body : Renderer → Renderer) (r : Renderer) :
    Renderer :=
  match e.filledAttr? "src" with
  | none => body r
  | some source => r.region (.link source.trim) (·.insertText s label.toList)

/-- Separates a list from its surroundings, by a blank line unless it is nested. -/
def separateList (nested : Bool) (b : Buffer) : Buffer :=
  if nested then b.ensureNewline else b.ensureParagraph

/-- The label of the first item of a list. -/
def firstLabel (numbered : Bool) (e : Element) : ListLabel :=
  if numbered then
    .number (((e.attr? "start").bind fun v => readNat? numberBound v.trim).getD 1)
  else .bullet

/-- A list, with the label of the surrounding list put back after it. -/
def list (numbered : Bool) (e : Element) (body : Renderer → Renderer) (r : Renderer) : Renderer :=
  let saved := r.layout.list
  let nested := saved != .none
  let r := (r.onBuffer (separateList nested)).onLayout
    ({ · with list := firstLabel numbered e })
  ((body r).onLayout ({ · with list := saved })).onBuffer (separateList nested)

/-- The text of a label. -/
def labelText : ListLabel → Text
  | .number n => natText n ++ [' ']
  | .bullet | .none => "* ".toList

/-- The label after this one. -/
def nextLabel : ListLabel → ListLabel
  | .number n => .number (min (n + 1) (numberBound - 1))
  | l => l

/-- A list item: its label, then its content indented by the width of the label. -/
def item (body : Renderer → Renderer) (r : Renderer) : Renderer :=
  let r := r.onBuffer (·.ensureNewline)
  let label := labelText r.layout.list
  let r := (r.onPage (·.indent)).onBuffer (·.pushLabel label)
  let r := r.onLayout ({ · with kind := .text })
  let r := (r.indented label.width body).onBuffer (·.ensureNewline)
  r.onLayout fun l => { l with list := nextLabel l.list }

/-- Text whose blanks and lines are kept. -/
def preformatted (body : Renderer → Renderer) : Renderer → Renderer :=
  inParagraph fun r =>
    let saved := r.layout.fold
    ((r.onLayout ({ · with fold := .verbatim })).region (.face .monospace) body).onLayout
      ({ · with fold := saved })

/-- Runs `body` for an element, with the colors that it declares in force and laid over what was
written. -/
def inColors (s : Scene) (e : Element) (body : Renderer → Renderer) (r : Renderer) : Renderer :=
  let (frame, ws) := e.frame
  let r := r.warn ws
  if frame.isEmpty then body r
  else
    let r := { r with styles := frame :: r.styles }
    let (start, r) := (body (r.onBuffer (·.openRegion))).closeRegion
    let colors := Contrast.resolveVisible s.options.contrast s.surface.foreground
      s.surface.background r.styles.resolve
    { r with styles := r.styles.tail }.colorize start colors

end MarkupText.Renderer
