import MarkupText.Flow.Insert
import MarkupText.Options
import MarkupText.Style.Stack
import MarkupText.Table.Cache
import MarkupText.Tree.Signature

/-!
# The renderer

A `Renderer` is what a descent over a tree carries along: the page being written, the colors in
force, the image requests made, the nodes on the way down and those entered, the cells kept so far
and the warnings given. The operations here write regions, colors and frames; none of them visits a
node.
-/

namespace MarkupText

/-- What a render reads and never changes. -/
structure Scene where
  tree : Tree
  options : Options := {}
  surface : Surface := {}
  /-- A cell that was rendered before is taken from the cache instead of being rendered again. -/
  reuseCells : Bool := true

/-- What determines a rendered cell: its structure (`none` for a missing cell), the width, whether
it is padded, whether blanks are kept, and the colors it inherits. -/
structure CellKey where
  width : Nat
  fill : Bool
  verbatim : Bool
  content : Option Signature
  style : StyleStack
deriving DecidableEq

abbrev CellCache := Cache CellKey

/-- The state of a descent. -/
structure Renderer where
  page : Page
  styles : StyleStack := []
  images : List ImageRequest := []
  /-- The node being rendered and its ancestors, innermost first. -/
  path : List NodeId := []
  /-- The nodes entered. -/
  visited : List NodeId := []
  cache : CellCache := {}
  log : WarningLog := {}

namespace Renderer

def buffer (r : Renderer) : Buffer := r.page.buffer

def layout (r : Renderer) : Layout := r.page.layout

def onPage (f : Page → Page) (r : Renderer) : Renderer := { r with page := f r.page }

def onBuffer (f : Buffer → Buffer) (r : Renderer) : Renderer := r.onPage (·.onBuffer f)

def onLayout (f : Layout → Layout) (r : Renderer) : Renderer := r.onPage (·.onLayout f)

def warn (r : Renderer) (ws : List Warning) : Renderer := { r with log := r.log.addAll ws }

/-- Writes text into the flow. -/
def insertText (s : Scene) (t : Text) (r : Renderer) : Renderer :=
  r.onPage (·.insert s.options.rules t)

/-- Marks `[start, stop)` without the spaces and newlines around it. -/
def markVisible (start stop : Nat) (mark : Mark) (r : Renderer) : Renderer :=
  match r.buffer.visibleRange start stop with
  | some (start, stop) => r.onBuffer (·.annotate start stop mark)
  | none => r

/-- Closes the innermost region and tells where it starts. -/
def closeRegion (r : Renderer) : Nat × Renderer :=
  let (start, b) := r.buffer.closeRegion
  (start, r.onBuffer fun _ => b)

/-- Runs `body` and marks what it wrote. -/
def region (mark : Mark) (body : Renderer → Renderer) (r : Renderer) : Renderer :=
  let (start, r) := (body (r.onBuffer (·.openRegion))).closeRegion
  r.markVisible start r.buffer.size mark

/-- Runs `body` with `extra` more columns of indentation. -/
def indented (extra : Nat) (body : Renderer → Renderer) (r : Renderer) : Renderer :=
  let saved := r.layout.indentation
  (body (r.onLayout ({ · with indentation := saved + extra }))).onLayout
    ({ · with indentation := saved })

/-- The parts of `[cursor, stop)` outside ranges that are sorted by their starts. -/
def gaps (cursor stop : Nat) : List (Nat × Nat) → List (Nat × Nat)
  | [] => if cursor < stop then [(cursor, stop)] else []
  | (s, e) :: rest =>
    let more := gaps (max cursor e) stop rest
    if cursor < s then (cursor, s) :: more else more

/-- Order of ranges by start, then by stop. -/
def rangeLe (a b : Nat × Nat) : Bool := a.1 < b.1 || (a.1 == b.1 && a.2 ≤ b.2)

/-- The parts of `[start, stop)` that have no color yet. -/
def uncolored (spans : List Span) (start stop : Nat) : List (Nat × Nat) :=
  let colored := spans.filter fun a => a.mark.isColors && a.meets start stop
  gaps start stop ((colored.map fun a => (max a.start start, min a.stop stop)).mergeSort rangeLe)

/-- Colors the text from `start` on, except the parts that have a color already. -/
def colorize (start : Nat) (colors : ColorPair) (r : Renderer) : Renderer :=
  if colors.isEmpty then r
  else match r.buffer.visibleRange start r.buffer.size with
    | none => r
    | some (start, stop) =>
      (uncolored r.buffer.spans start stop).foldl (fun r (s, e) =>
        r.markVisible s e (.colors colors.foreground colors.background)) r

end Renderer

/-- The color that an attribute declares, and a report if it is none. -/
def attributeColor (e : Element) (name : String) : Option Color × List Warning :=
  match e.filledAttr? name with
  | none => (none, [])
  | some v =>
    match Color.ofText? v with
    | some c => (some c, [])
    | none => (none,
        [{ component := "Style".toList
           message := "ignoring unparseable ".toList ++ name.toList ++ "=\"".toList ++ v ++
            "\" on <".toList ++ e.name ++ ['>'] }])

/-- The attributes that declare a foreground and a background on an element. -/
def colorAttributes : Tag → Option String × Option String
  | .font => (some "color", none)
  | .body => (some "text", some "bgcolor")
  | .table | .tr | .td | .th => (none, some "bgcolor")
  | _ => (none, none)

/-- The colors that an element declares by attributes and, over them, by its inline style. -/
def Element.frame (e : Element) : Frame × List Warning :=
  let (fg, bg) := colorAttributes e.tag
  let (fg, ws₁) := (fg.map (attributeColor e)).getD (none, [])
  let (bg, ws₂) := (bg.map (attributeColor e)).getD (none, [])
  let (ds, ws₃) := ((e.filledAttr? "style").map Style.read).getD ([], [])
  let frame : Frame := { foreground := fg.map (⟨·, false⟩), background := bg.map (⟨·, false⟩) }
  (frame.apply ds, ws₁ ++ ws₂ ++ ws₃)

end MarkupText
