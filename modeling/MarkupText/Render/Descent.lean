import MarkupText.Rendered
import MarkupText.Table.Layout

/-!
# Rendering a tree

`Renderer.node` renders the subtree at a node by the rule of each element. It goes at most
`Tree.maxDepth` levels deep and enters no node twice, so trees with cycles or shared children are
rendered too. `render` renders from a start node onto a new page.
-/

namespace MarkupText
namespace Renderer

/-- Renders the children of a node in order. -/
def children (s : Scene) (visit : NodeId → Renderer → Renderer) (id : NodeId) (r : Renderer) :
    Renderer :=
  (s.tree.children id).foldl (fun r child => visit child r) r

/-- Renders the titles among the children of a node. -/
def titles (s : Scene) (visit : NodeId → Renderer → Renderer) (id : NodeId) (r : Renderer) :
    Renderer :=
  ((s.tree.children id).filter fun child => s.tree.tag? child = some .title).foldl
    (fun r child => visit child r) r

/-- Renders an element by the rule of its role. -/
def rule (s : Scene) (visit : NodeId → Renderer → Renderer) (id : NodeId) (e : Element) :
    Renderer → Renderer :=
  let body := children s visit id
  match e.tag.role with
  | .inline => body
  | .hidden => fun r => r
  | .head => titles s visit id
  | .paragraph => inParagraph body
  | .block => inBlock body
  | .lineBreak => lineBreak
  | .ruler => ruler
  | .heading => inParagraph (region (.face .bold) body)
  | .link => link e body
  | .image => image s e
  | .media label => media s label e body
  | .list numbered => list numbered e body
  | .item => item body
  | .quote => inParagraph (indented blockIndent body)
  | .definition => inBlock (indented blockIndent body)
  | .preformatted => preformatted body
  | .table => table s visit id
  | .face f => region (.face f) body

/-- Renders the content of a node. -/
def content (s : Scene) (visit : NodeId → Renderer → Renderer) (id : NodeId) :
    Content → Renderer → Renderer
  | .document => children s visit id
  | .text t => insertText s t
  | .comment _ => fun r => r
  | .element e => inColors s e (rule s visit id e)

/-- The report of nodes that are too deep. -/
def depthWarning : Warning where
  component := "Render".toList
  message := "tree deeper than ".toList ++ natText Tree.maxDepth ++
    " levels; deeper nodes are skipped".toList

/-- The report of a node that was entered before. -/
def repeatWarning : Warning where
  component := "Render".toList
  message := "node reached more than once; repeated visit skipped".toList

/-- Renders the subtree at a node, down to `levels` levels. -/
def node (s : Scene) : (levels : Nat) → NodeId → Renderer → Renderer
  | 0, _, r => r.warn [depthWarning]
  | levels + 1, id, r =>
    match s.tree.get? id with
    | none => r
    | some n =>
      if id ∈ r.visited then r.warn [repeatWarning]
      else
        let r := { r with visited := id :: r.visited, path := id :: r.path }
        let r := content s (node s levels) id n.content r
        { r with path := r.path.tail }

/-- The renderer at the start of a render. -/
def start (s : Scene) (cache : CellCache) : Renderer :=
  { page := { layout := { width := s.options.resolveWidth s.surface } }, cache }

/-- The rendered text; one that is not empty ends with one newline. -/
def finish (r : Renderer) : Rendered :=
  let (text, spans) := r.buffer.finish
  { text := if text.isEmpty then [] else text ++ ['\n'], spans, images := r.images }

end Renderer

/-- What a render gives besides its result: the cells kept and the warnings. -/
structure Outcome where
  rendered : Rendered
  cache : CellCache
  log : WarningLog

/-- Renders the subtree at `id`, with `cache` cleared first. -/
def renderWith (s : Scene) (id : NodeId) (cache : CellCache) : Outcome :=
  let r := Renderer.node s Tree.maxDepth id (.start s cache.clear)
  { rendered := r.finish, cache := r.cache, log := r.log }

/-- Renders the subtree at `id`. -/
def render (s : Scene) (id : NodeId) : Outcome := renderWith s id {}

end MarkupText
