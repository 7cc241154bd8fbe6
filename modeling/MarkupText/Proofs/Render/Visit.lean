import MarkupText.Proofs.Render.Invariant
import Mathlib.Logic.Relation

/-!
# Visits

A visit enters a node, does what the node asks for in front of its content, visits the nodes shown
as its content, and closes what it opened; a table has its grid written then and visits the images
held back by its cells (`Visit.result_eq`). `Calls` relates a visit to those it makes on its own
page, and `Reaches` to all below it. What the steps of a rule keep (`Renderer.Upkeep`) holds at the
start of every visit, and what holds after one still holds after the visits around it
(`Reaches.later`).
-/

namespace MarkupText

/-- A visit of a node, with the levels left and the renderer that it starts with. -/
structure Visit where
  levels : Nat
  id : NodeId
  start : Renderer

namespace Renderer
variable {s : Scene} {visit : NodeId → Renderer → Renderer} {id : NodeId} {e : Element}
  {r q : Renderer}

/-- Visits nodes in order. -/
def visits (visit : NodeId → Renderer → Renderer) (ids : List NodeId) (r : Renderer) : Renderer :=
  ids.foldl (fun r id => visit id r) r

theorem visits_append (ids ids' : List NodeId) :
    visits visit (ids ++ ids') r = visits visit ids' (visits visit ids r) :=
  List.foldl_append

/-! ### Elements -/

/-- Puts the colors of an element in force. -/
def openColors (e : Element) (r : Renderer) : Renderer :=
  if e.frame.1.isEmpty then r.warn e.frame.2
  else { r.warn e.frame.2 with styles := e.frame.1 :: r.styles }.onBuffer (·.openRegion)

/-- Lays the colors of an element over what was written. -/
def closeColors (s : Scene) (e : Element) (r : Renderer) : Renderer :=
  if e.frame.1.isEmpty then r
  else { r with styles := r.styles.tail }.onBuffer (·.endColors (visibleColors s r.styles))

theorem inColors_eq_close (s : Scene) (e : Element) (body : Renderer → Renderer) (r : Renderer) :
    inColors s e body r = closeColors s e (body (openColors e r)) := by
  unfold openColors closeColors
  by_cases h : e.frame.1.isEmpty = true
  · rw [inColors_eq_of_isEmpty h, if_pos h, if_pos h]
  · rw [inColors_eq h, if_neg h, if_neg h]

def indentBy (extra : Nat) (r : Renderer) : Renderer :=
  r.onLayout ({ · with indentation := r.layout.indentation + extra })

/-- What the rule of an element does in front of its content. -/
def openRule (s : Scene) (id : NodeId) (e : Element) (r : Renderer) : Renderer :=
  match e.tag.role with
  | .inline | .hidden | .head => r
  | .paragraph => r.onBuffer (·.ensureParagraph)
  | .block => r.onBuffer (·.ensureNewline)
  | .lineBreak => lineBreak r
  | .ruler => ruler r
  | .heading => (r.onBuffer (·.ensureParagraph)).onBuffer (·.openRegion)
  | .link => if (e.filledAttr? "href").isSome then r.onBuffer (·.openRegion) else r
  | .image => image s e r
  | .media label => media s label e (fun r => r) r
  | .list numbered => (r.onBuffer (separateList (r.layout.list != .none))).onLayout
      ({ · with list := firstLabel numbered e })
  | .item => (labelled r).indentBy (labelText r.layout.list).width
  | .quote => (r.onBuffer (·.ensureParagraph)).indentBy blockIndent
  | .definition => (r.onBuffer (·.ensureNewline)).indentBy blockIndent
  | .preformatted =>
    ((r.onBuffer (·.ensureParagraph)).onLayout ({ · with fold := .verbatim })).onBuffer
      (·.openRegion)
  | .table =>
    let r := r.warn (Grid.collect s.tree id).2
    if (Grid.collect s.tree id).1.caption.isSome then r.onBuffer (·.ensureNewline) else r
  | .face _ => r.onBuffer (·.openRegion)

/-- The nodes that an element shows as its content. -/
def shownBy (s : Scene) (id : NodeId) (e : Element) : List NodeId :=
  match e.tag.role with
  | .hidden | .lineBreak | .ruler | .image => []
  | .head => (s.tree.children id).filter fun child => s.tree.tag? child = some .title
  | .media _ => if (e.filledAttr? "src").isSome then [] else s.tree.children id
  | .table => ((Grid.collect s.tree id).1.caption.map s.tree.children).getD []
  | _ => s.tree.children id

/-- What the rule of an element does behind its content; the layout in front of it was `l`. -/
def closeRule (s : Scene) (visit : NodeId → Renderer → Renderer) (id : NodeId) (e : Element)
    (l : Layout) (r : Renderer) : Renderer :=
  let outdent := r.onLayout ({ · with indentation := l.indentation })
  match e.tag.role with
  | .inline | .hidden | .head | .lineBreak | .ruler | .image | .media _ => r
  | .paragraph => r.onBuffer (·.ensureParagraph)
  | .block => r.onBuffer (·.ensureNewline)
  | .heading => (r.onBuffer (·.endRegion (.face .bold))).onBuffer (·.ensureParagraph)
  | .link =>
    match e.filledAttr? "href" with
    | some href => r.onBuffer (·.endRegion (.link href.trim))
    | none => r
  | .list _ => (r.onLayout ({ · with list := l.list })).onBuffer (separateList (l.list != .none))
  | .item =>
    (outdent.onBuffer (·.ensureNewline)).onLayout fun l => { l with list := nextLabel l.list }
  | .quote => outdent.onBuffer (·.ensureParagraph)
  | .definition => outdent.onBuffer (·.ensureNewline)
  | .preformatted =>
    ((r.onBuffer (·.endRegion (.face .monospace))).onLayout ({ · with fold := l.fold })).onBuffer
      (·.ensureParagraph)
  | .table => putGrid s visit (Grid.collect s.tree id).1 (r.onBuffer (·.ensureNewline))
  | .face f => r.onBuffer (·.endRegion (.face f))

/-- The images held back by the cells of a table that is not in another one. -/
def deferredBy (s : Scene) (id : NodeId) (e : Element) (r : Renderer) : List NodeId :=
  if e.tag.role = .table ∧ r.layout.tableDepth = 0 then
    deferredImages s (Grid.collect s.tree id).1
  else []

theorem role_eq_table {t : Tag} : t.role = .table ↔ t = .table := by
  cases t <;> decide

theorem deferredBy_of_ne (h : e.tag.role ≠ .table) (r : Renderer) : deferredBy s id e r = [] :=
  if_neg fun h' => h h'.1

theorem layout_labelled (r : Renderer) :
    (labelled r).layout = { r.layout with kind := .text } :=
  congrArg (fun l : Layout => { l with kind := FlowKind.text })
    (Page.pours_indent (r.page.onBuffer (·.ensureNewline))).layout

theorem rule_eq (s : Scene) (visit : NodeId → Renderer → Renderer) (id : NodeId) (e : Element)
    (r : Renderer) : rule s visit id e r =
      let r := closeRule s visit id e r.layout
        (visits visit (shownBy s id e) (openRule s id e r))
      visits visit (deferredBy s id e r) r := by
  have hplain {q : Renderer} (h : e.tag.role ≠ .table) (hq : rule s visit id e r = q) :
      rule s visit id e r = visits visit (deferredBy s id e q) q := by
    rw [hq, deferredBy_of_ne h]
    rfl
  cases hrole : e.tag.role with
  | table =>
    have hcaption (g : Grid) (r : Renderer) : putCaption s visit g r =
        (visits visit ((g.caption.map s.tree.children).getD [])
          (if g.caption.isSome then r.onBuffer (·.ensureNewline) else r)).onBuffer
            (·.ensureNewline) := by
      unfold putCaption
      cases g.caption <;> rfl
    unfold rule openRule shownBy closeRule deferredBy
    simp only [hrole, table_eq, hcaption, true_and]
    generalize putGrid s visit _ _ = q
    by_cases hdepth : q.layout.tableDepth = 0
    · rw [if_pos hdepth, if_pos hdepth]
      rfl
    · rw [if_neg hdepth, if_neg hdepth]
      rfl
  | link =>
    refine hplain (by rw [hrole]; decide) ?_
    unfold rule openRule shownBy closeRule
    simp only [hrole]
    unfold link
    cases e.filledAttr? "href" with
    | none => rfl
    | some href => exact region_eq ..
  | media label =>
    refine hplain (by rw [hrole]; exact fun h => by cases h) ?_
    unfold rule openRule shownBy closeRule
    simp only [hrole]
    unfold media
    cases e.filledAttr? "src" <;> rfl
  | heading =>
    refine hplain (by rw [hrole]; decide) ?_
    unfold rule openRule shownBy closeRule
    simp only [hrole]
    exact congrArg (Renderer.onBuffer (·.ensureParagraph)) (region_eq ..)
  | face f =>
    refine hplain (by rw [hrole]; exact fun h => by cases h) ?_
    unfold rule openRule shownBy closeRule
    simp only [hrole]
    exact region_eq ..
  | preformatted =>
    refine hplain (by rw [hrole]; decide) ?_
    unfold rule openRule shownBy closeRule
    simp only [hrole]
    have hregion := region_eq (.face .monospace) (children s visit id)
      ((r.onBuffer (·.ensureParagraph)).onLayout ({ · with fold := .verbatim }))
    exact congrArg (fun q : Renderer => (q.onLayout ({ · with fold := r.layout.fold })).onBuffer
      (·.ensureParagraph)) hregion
  | item =>
    refine hplain (by rw [hrole]; decide) ?_
    unfold rule openRule shownBy closeRule
    simp only [hrole]
    rw [item_eq, indented, layout_labelled]
    unfold indentBy
    rw [layout_labelled]
    rfl
  | _ =>
    refine hplain (by rw [hrole]; exact fun h => by cases h) ?_
    unfold rule openRule shownBy closeRule
    simp only [hrole]
    rfl

/-! ### Contents -/

/-- What a node does in front of what it shows. -/
def opening (s : Scene) (id : NodeId) (c : Content) (r : Renderer) : Renderer :=
  match c with
  | .text t => insertText s t r
  | .element e => openRule s id e (openColors e r)
  | .document | .comment _ => r

/-- The nodes that a node shows as its content. -/
def shown (s : Scene) (id : NodeId) : Content → List NodeId
  | .document => s.tree.children id
  | .element e => shownBy s id e
  | .text _ | .comment _ => []

/-- What a node does behind what it shows. -/
def closing (s : Scene) (visit : NodeId → Renderer → Renderer) (id : NodeId) (c : Content)
    (l : Layout) (r : Renderer) : Renderer :=
  match c with
  | .element e => closeRule s visit id e l r
  | _ => r

/-- The nodes that a node visits at last. -/
def deferred (s : Scene) (id : NodeId) (c : Content) (r : Renderer) : List NodeId :=
  match c with
  | .element e => deferredBy s id e r
  | _ => []

def ending (s : Scene) (c : Content) (r : Renderer) : Renderer :=
  match c with
  | .element e => closeColors s e r
  | _ => r

@[simp] theorem layout_openColors (e : Element) (r : Renderer) :
    (openColors e r).layout = r.layout := by
  unfold openColors
  split <;> rfl

theorem content_eq (s : Scene) (visit : NodeId → Renderer → Renderer) (id : NodeId) (c : Content)
    (r : Renderer) : content s visit id c r =
      let r := closing s visit id c r.layout (visits visit (shown s id c) (opening s id c r))
      ending s c (visits visit (deferred s id c r) r) := by
  cases c with
  | element e =>
    refine (inColors_eq_close ..).trans ?_
    rw [rule_eq, layout_openColors]
    rfl
  | _ => rfl

end Renderer

namespace Visit
open Renderer
variable {s : Scene} {v w : Visit} {c : Content}

/-- The renderer after a visit. -/
def result (s : Scene) (v : Visit) : Renderer := node s v.levels v.id v.start

/-- How a visit visits the nodes below. -/
def below (s : Scene) (v : Visit) : NodeId → Renderer → Renderer := node s (v.levels - 1)

/-- The visit enters its node, which is `c`. -/
structure Enters (s : Scene) (v : Visit) (c : Content) : Prop where
  levels : 0 < v.levels
  content : (s.tree.get? v.id).map Node.content = some c
  fresh : v.id ∉ v.start.visited

/-- The renderer in front of what is shown. -/
def opened (s : Scene) (v : Visit) (c : Content) : Renderer :=
  opening s v.id c { v.start with visited := v.id :: v.start.visited, path := v.id :: v.start.path }

/-- The renderer behind what is shown. -/
def filled (s : Scene) (v : Visit) (c : Content) : Renderer :=
  visits (v.below s) (shown s v.id c) (v.opened s c)

/-- The renderer with all closed that was opened. -/
def closed (s : Scene) (v : Visit) (c : Content) : Renderer :=
  closing s (v.below s) v.id c v.start.layout (v.filled s c)

/-- The last step of a visit takes its node off the path. -/
theorem result_eq_pop (h : v.Enters s c) : v.result s =
    let r := ending s c (visits (v.below s) (deferred s v.id c (v.closed s c)) (v.closed s c))
    { r with path := r.path.tail } := by
  obtain ⟨levels, id, r⟩ := v
  obtain ⟨hlevels, hcontent, hfresh⟩ := h
  obtain ⟨levels, rfl⟩ : ∃ n, levels = n + 1 := ⟨levels - 1, by dsimp only at hlevels; omega⟩
  obtain ⟨n, hget, rfl⟩ := Option.map_eq_some_iff.1 hcontent
  dsimp only at hget hfresh
  unfold result node
  dsimp only
  rw [hget]
  dsimp only
  rw [if_neg hfresh, content_eq]
  rfl

theorem result_eq (h : v.Enters s c) : ∃ path, v.result s =
    { ending s c (visits (v.below s) (deferred s v.id c (v.closed s c)) (v.closed s c)) with
      path } :=
  ⟨_, result_eq_pop h⟩

/-- A visit enters its node or leaves the page, the nodes entered and the requests as they are. -/
theorem enters_or (s : Scene) (v : Visit) :
    (∃ c, v.Enters s c) ∨ ∃ log, v.result s = { v.start with log } := by
  obtain ⟨levels, id, r⟩ := v
  cases levels with
  | zero => exact .inr ⟨_, rfl⟩
  | succ levels =>
    cases hget : s.tree.get? id with
    | none =>
      refine .inr ⟨r.log, ?_⟩
      unfold result node
      dsimp only
      rw [hget]
    | some n =>
      by_cases hfresh : id ∈ r.visited
      · right
        unfold result node
        dsimp only
        rw [hget]
        dsimp only
        rw [if_pos hfresh]
        exact ⟨_, rfl⟩
      · exact .inl ⟨n.content, Nat.succ_pos _, by rw [hget]; rfl, hfresh⟩

/-- The visit `w` is made by `v` on the same page, for what the node shows or for an image that a
table held back. -/
inductive Calls (s : Scene) (v : Visit) : Visit → Prop
  | shown {c : Content} {before after : List NodeId} {x : NodeId} (h : v.Enters s c)
      (hids : Renderer.shown s v.id c = before ++ x :: after) :
      Calls s v ⟨v.levels - 1, x, visits (v.below s) before (v.opened s c)⟩
  | deferred {c : Content} {before after : List NodeId} {x : NodeId} (h : v.Enters s c)
      (hids : Renderer.deferred s v.id c (v.closed s c) = before ++ x :: after) :
      Calls s v ⟨v.levels - 1, x, visits (v.below s) before (v.closed s c)⟩

/-- The visit `w` is `v`, or is made in the course of it on the same page. -/
def Reaches (s : Scene) : Visit → Visit → Prop := Relation.ReflTransGen (Calls s)

end Visit

/-! ### What visits keep -/

namespace Renderer

/-- A property of renderers that the steps of a rule keep. Of a table, the grid is one step. -/
structure Upkeep (s : Scene) (K : Renderer → Prop) : Prop where
  aside : ∀ {r r'}, K r → r'.page = r.page → r'.images = r.images → r'.cache = r.cache → K r'
  layout : ∀ {r} (f : Layout → Layout), (f r.layout).kind = r.layout.kind →
    (f r.layout).inhibitImages = r.layout.inhibitImages → (f r.layout).fold = r.layout.fold →
      K r → K (r.onLayout f)
  /-- How text is folded changes only where a paragraph starts. -/
  refold : ∀ {r} fold, K r → K ((r.onBuffer (·.ensureParagraph)).onLayout ({ · with fold }))
  ensureNewline : ∀ {r}, K r → K (r.onBuffer (·.ensureNewline))
  ensureParagraph : ∀ {r}, K r → K (r.onBuffer (·.ensureParagraph))
  openRegion : ∀ {r}, K r → K (r.onBuffer (·.openRegion))
  endRegion : ∀ {r} mark, mark.isRegion = true → K r → K (r.onBuffer (·.endRegion mark))
  endColors : ∀ {r} colors, K r → K (r.onBuffer (·.endColors colors))
  insertText : ∀ {r} t, K r → K (insertText s t r)
  lineBreak : ∀ {r}, K r → K (lineBreak r)
  ruler : ∀ {r}, K r → K (ruler r)
  labelled : ∀ {r}, K r → K (labelled r)
  image : ∀ {r} e, K r → K (image s e r)
  grid : ∀ {r} levels g, K r → K (putGrid s (node s levels) g (r.onBuffer (·.ensureNewline)))

theorem Invariant.upkeep {s : Scene} {K : Bool → Page → Prop} {P : CellKey → Cell → Prop}
    (h : Invariant s K P) (b : Bool) : Upkeep s (Good K P b) where
  aside hr hpage _ hcache := hr.of_page hcache hpage
  layout f hkind himages _ hr := hr.of_cache rfl (h.layout f hkind himages hr.page)
  refold fold hr := h.onLayout ({ · with fold }) (fun _ => rfl) (fun _ => rfl) (h.newParagraph hr)
  ensureNewline hr := h.newLine hr
  ensureParagraph hr := h.newParagraph hr
  openRegion hr := hr.of_cache rfl (h.openRegion hr.page)
  endRegion mark hmark hr := hr.of_cache rfl (h.endRegion mark hmark hr.page)
  endColors colors hr := hr.of_cache rfl (h.endColors colors hr.page)
  insertText t hr := h.insertText t hr
  lineBreak hr := hr.of_cache rfl (h.lineBreak hr.page)
  ruler hr := hr.of_cache rfl (h.ruler hr.page)
  labelled hr := hr.of_cache rfl (h.labelled hr.page)
  image e hr := h.imageStep e hr
  grid levels g hr := h.putGrid (h.node levels) g (h.newLine hr)

namespace Upkeep
variable {s : Scene} {K : Renderer → Prop} {r : Renderer} (h : Upkeep s K)
include h

theorem indentBy (extra : Nat) (hr : K r) : K (r.indentBy extra) :=
  h.layout ({ · with indentation := r.layout.indentation + extra }) rfl rfl rfl hr

theorem separateList (nested : Bool) (hr : K r) : K (r.onBuffer (separateList nested)) := by
  cases nested
  · exact h.ensureParagraph hr
  · exact h.ensureNewline hr

theorem openColors (e : Element) (hr : K r) : K (openColors e r) := by
  unfold Renderer.openColors
  split
  · exact h.aside hr rfl rfl rfl
  · exact h.openRegion (h.aside hr rfl rfl rfl)

theorem closeColors (e : Element) (hr : K r) : K (closeColors s e r) := by
  unfold Renderer.closeColors
  split
  · exact hr
  · exact h.endColors _ (h.aside hr rfl rfl rfl)

theorem mediaLabel (label : String) (e : Element) (hr : K r) :
    K (media s label e (fun r => r) r) := by
  unfold media
  cases e.filledAttr? "src" with
  | none => exact hr
  | some source =>
    dsimp only
    rw [region_eq]
    exact h.endRegion _ rfl (h.insertText _ (h.openRegion hr))

theorem openRule (id : NodeId) (e : Element) (hr : K r) : K (openRule s id e r) := by
  unfold Renderer.openRule
  cases e.tag.role with
  | inline | hidden | head => exact hr
  | paragraph => exact h.ensureParagraph hr
  | block => exact h.ensureNewline hr
  | lineBreak => exact h.lineBreak hr
  | ruler => exact h.ruler hr
  | heading => exact h.openRegion (h.ensureParagraph hr)
  | link =>
    dsimp only
    split
    · exact h.openRegion hr
    · exact hr
  | image => exact h.image e hr
  | media label => exact h.mediaLabel label e hr
  | list numbered =>
    exact h.layout ({ · with list := firstLabel numbered e }) rfl rfl rfl (h.separateList _ hr)
  | item => exact h.indentBy _ (h.labelled hr)
  | quote => exact h.indentBy _ (h.ensureParagraph hr)
  | definition => exact h.indentBy _ (h.ensureNewline hr)
  | preformatted => exact h.openRegion (h.refold .verbatim hr)
  | table =>
    have hwarn : K (r.warn (Grid.collect s.tree id).2) := h.aside hr rfl rfl rfl
    dsimp only
    split
    · exact h.ensureNewline hwarn
    · exact hwarn
  | face f => exact h.openRegion hr

theorem closeRule (levels : Nat) (id : NodeId) (e : Element) (l : Layout) (hr : K r) :
    K (closeRule s (node s levels) id e l r) := by
  have houtdent : K (r.onLayout ({ · with indentation := l.indentation })) :=
    h.layout ({ · with indentation := l.indentation }) rfl rfl rfl hr
  unfold Renderer.closeRule
  cases e.tag.role with
  | inline | hidden | head | lineBreak | ruler | image | media => exact hr
  | paragraph => exact h.ensureParagraph hr
  | block => exact h.ensureNewline hr
  | heading => exact h.ensureParagraph (h.endRegion _ rfl hr)
  | link =>
    dsimp only
    split
    · exact h.endRegion _ rfl hr
    · exact hr
  | list numbered => exact h.separateList _ (h.layout ({ · with list := l.list }) rfl rfl rfl hr)
  | item =>
    exact h.layout (fun l => { l with list := nextLabel l.list }) rfl rfl rfl
      (h.ensureNewline houtdent)
  | quote => exact h.ensureParagraph houtdent
  | definition => exact h.ensureNewline houtdent
  | preformatted =>
    let q := r.onBuffer (·.endRegion (.face .monospace))
    have hq : K ((q.onBuffer (·.ensureParagraph)).onLayout ({ · with fold := l.fold })) :=
      h.refold l.fold (h.endRegion _ rfl hr)
    exact hq
  | table => exact h.grid levels _ hr
  | face f => exact h.endRegion _ rfl hr

theorem opening (id : NodeId) (c : Content) (hr : K r) : K (opening s id c r) := by
  cases c with
  | text t => exact h.insertText t hr
  | element e => exact h.openRule id e (h.openColors e hr)
  | _ => exact hr

theorem closing (levels : Nat) (id : NodeId) (c : Content) (l : Layout) (hr : K r) :
    K (closing s (node s levels) id c l r) := by
  cases c with
  | element e => exact h.closeRule levels id e l hr
  | _ => exact hr

theorem ending (c : Content) (hr : K r) : K (ending s c r) := by
  cases c with
  | element e => exact h.closeColors e hr
  | _ => exact hr

omit h in
theorem visits {visit : NodeId → Renderer → Renderer} (hvisit : ∀ id r, K r → K (visit id r))
    (ids : List NodeId) (hr : K r) : K (visits visit ids r) := by
  induction ids generalizing r with
  | nil => exact hr
  | cons id ids ih => exact ih (hvisit id r hr)

/-- What the steps of a rule keep a descent keeps. -/
theorem node (levels : Nat) (id : NodeId) (r : Renderer) (hr : K r) :
    K (node s levels id r) := by
  induction levels generalizing id r with
  | zero => exact h.aside hr rfl rfl rfl
  | succ levels ih =>
    let v : Visit := ⟨levels + 1, id, r⟩
    change K (v.result s)
    rcases v.enters_or s with ⟨c, hv⟩ | ⟨log, hlog⟩
    · obtain ⟨path, heq⟩ := Visit.result_eq hv
      have hopened : K (v.opened s c) := h.opening _ c (h.aside hr rfl rfl rfl)
      have hfilled : K (v.filled s c) := visits ih _ hopened
      have hclosed : K (v.closed s c) := h.closing levels _ c _ hfilled
      rw [heq]
      exact h.aside (h.ending c (visits ih _ hclosed)) rfl rfl rfl
    · rw [hlog]
      exact h.aside hr rfl rfl rfl

end Upkeep
end Renderer

namespace Visit
open Renderer
variable {s : Scene} {K : Renderer → Prop} {v w : Visit} {c : Content} (hK : Upkeep s K)
include hK

theorem keep_opened (hv : K v.start) (c : Content) : K (v.opened s c) :=
  hK.opening _ c (hK.aside hv rfl rfl rfl)

theorem keep_filled (hv : K v.start) (c : Content) : K (v.filled s c) :=
  Upkeep.visits (hK.node _) _ (keep_opened hK hv c)

theorem keep_closed (hv : K (v.filled s c)) : K (v.closed s c) := hK.closing _ _ c _ hv

/-- What holds once all is closed and is kept holds at the end of the visit. -/
theorem keep_result (h : v.Enters s c) (hv : K (v.closed s c)) : K (v.result s) := by
  obtain ⟨path, heq⟩ := result_eq h
  rw [heq]
  exact hK.aside (hK.ending c (Upkeep.visits (hK.node _) _ hv)) rfl rfl rfl

theorem Calls.keep (h : Calls s v w) (hv : K v.start) : K w.start := by
  cases h with
  | @shown c before after x h hids =>
    exact Upkeep.visits (hK.node _) before (keep_opened hK hv c)
  | @deferred c before after x h hids =>
    exact Upkeep.visits (hK.node _) before (keep_closed hK (keep_filled hK hv c))

theorem Reaches.keep (h : Reaches s v w) (hv : K v.start) : K w.start := by
  induction h with
  | refl => exact hv
  | tail _ h ih => exact h.keep hK ih

/-- What holds after a visit and is kept holds after the one that made it. -/
theorem Calls.later (h : Calls s v w) (hw : K (w.result s)) : K (v.result s) := by
  cases h with
  | @shown c before after x h hids =>
    have hfilled : K (v.filled s c) := by
      unfold filled
      rw [hids, ← List.singleton_append, visits_append, visits_append]
      exact Upkeep.visits (hK.node _) after hw
    exact keep_result hK h (keep_closed hK hfilled)
  | @deferred c before after x h hids =>
    obtain ⟨path, heq⟩ := result_eq h
    rw [heq, hids, ← List.singleton_append, visits_append, visits_append]
    exact hK.aside (hK.ending c (Upkeep.visits (hK.node _) after hw)) rfl rfl rfl

theorem Reaches.later (h : Reaches s v w) (hw : K (w.result s)) : K (v.result s) := by
  induction h with
  | refl => exact hw
  | tail _ h ih => exact ih (h.later hK hw)

end Visit
end MarkupText
