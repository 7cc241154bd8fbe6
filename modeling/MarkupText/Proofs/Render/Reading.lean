import MarkupText.Proofs.Render.Edits
import MarkupText.Render.Descent

/-!
# What a tree reads as

`Reader.node` walks a tree in document order, enters each node at most once and none more than
`Tree.maxDepth` levels down, and collects the texts, labels, rulers and placeholders that it meets.
For trees without tables this is what is shown, up to blanks (`visible_renderWith`): the layout
loses, doubles and moves nothing. The walk and the descent of the renderer go in step
(`reads_node`); one lemma for each kind of rule says what the rule adds to its content.
-/

namespace MarkupText

open Text

/-- What a reading carries along: the nodes entered, and the label of the next list item. -/
structure Reader where
  visited : List NodeId := []
  label : ListLabel := .none

namespace Reader

def inOrder (read : NodeId → Reader → Text × Reader) : List NodeId → Reader → Text × Reader
  | [], r => ([], r)
  | id :: ids, r =>
    let (t, r) := read id r
    let (u, r) := inOrder read ids r
    (t ++ u, r)

/-- The elements of which nothing is read because their content is no text to show. -/
def unread : List Tag := [.script, .style, .template]

/-- Reads an element whose children are read by `read`, given their indentation. Of the `silent`
elements nothing is read. -/
def element (s : Scene) (silent : List Tag) (read : Nat → NodeId → Reader → Text × Reader)
    (indentation : Nat) (id : NodeId) (e : Element) (r : Reader) : Text × Reader :=
  let below (indentation : Nat) : Reader → Text × Reader :=
    inOrder (read indentation) (s.tree.children id)
  let media (label : String) : Text × Reader :=
    if (e.filledAttr? "src").isSome then (label.toList, r) else below indentation r
  let list (label : ListLabel) : Text × Reader :=
    let (t, r') := below indentation { r with label }
    (t, { r' with label := r.label })
  if e.tag ∈ silent then ([], r)
  else match e.tag with
    | .head => inOrder (read indentation)
        ((s.tree.children id).filter fun child => s.tree.tag? child = some .title) r
    | .hr =>
      (List.replicate (max 1 (s.options.resolveWidth s.surface - indentation)) '-', r)
    | .img =>
      let alt := ((e.attr? "alt").map Text.trim).getD []
      (if alt.isEmpty && (Renderer.fetchableSource? s e).isSome then ['*'] else alt, r)
    | .audio => media "[audio]"
    | .video => media "[video]"
    | .ul => list .bullet
    | .ol => list (Renderer.firstLabel true e)
    | .li =>
      let label := Renderer.labelText r.label
      let (t, r) := below (indentation + label.width) r
      (label ++ t, { r with label := Renderer.nextLabel r.label })
    | .blockquote | .dd => below (indentation + 4) r
    | _ => below indentation r

/-- Reads the content of a node. -/
def content (s : Scene) (silent : List Tag) (read : Nat → NodeId → Reader → Text × Reader)
    (indentation : Nat) (id : NodeId) : Content → Reader → Text × Reader
  | .document => inOrder (read indentation) (s.tree.children id)
  | .text t => fun r => (t, r)
  | .comment _ => fun r => ([], r)
  | .element e => element s silent read indentation id e

/-- Reads the subtree at a node, down to `levels` levels. -/
def node (s : Scene) (silent : List Tag) :
    (levels indentation : Nat) → NodeId → Reader → Text × Reader
  | 0, _, _, r => ([], r)
  | levels + 1, indentation, id, r =>
    match s.tree.get? id with
    | none => ([], r)
    | some n =>
      if id ∈ r.visited then ([], r)
      else content s silent (node s silent levels) indentation id n.content
        { r with visited := id :: r.visited }

end Reader

/-- No element of the tree is a table. -/
def Tree.TableFree (t : Tree) : Prop := ∀ id, t.tag? id ≠ some .table

instance (t : Tree) : Decidable t.TableFree :=
  decidable_of_iff (∀ id < t.size, t.tag? id ≠ some .table) <| by
    refine ⟨fun h id => ?_, fun h id _ => h id⟩
    by_cases hid : id < t.size
    · exact h id hid
    · have hget : t.get? id = none := Array.getElem?_eq_none (Nat.le_of_not_lt hid)
      simp [Tree.tag?, Tree.element?, hget]

namespace Renderer

/-- What a reading has to know of a renderer. -/
def reader (r : Renderer) : Reader := { visited := r.visited, label := r.layout.list }

/-- The renderer `r'` has written, after `r`, what was read. -/
structure Reads (R : RangeRule) (r r' : Renderer) (out : Text × Reader) : Prop where
  run : Buffer.Run R (visible out.1) r.buffer r'.buffer
  layout : r'.layout = { r.layout with list := out.2.label, kind := r'.layout.kind }
  visited : r'.visited = out.2.visited

namespace Reads
variable {R : RangeRule} {r r' r'' : Renderer} {out : Text × Reader} {t u : Text} {a b : Reader}

theorem refl (R : RangeRule) (r : Renderer) : Reads R r r ([], r.reader) := ⟨.refl _, rfl, rfl⟩

/-- Nothing is written where the page stays as it is. -/
theorem of_page_eq (hpage : r'.page = r.page) (hvisited : r'.visited = r.visited) :
    Reads R r r' ([], r.reader) := by
  have hbuffer : r'.buffer = r.buffer := congrArg Page.buffer hpage
  have hlayout : r'.layout = r.layout := congrArg Page.layout hpage
  exact ⟨hbuffer ▸ .refl _, by rw [hlayout]; rfl, hvisited⟩

theorem reader_eq (h : Reads R r r' out) : r'.reader = out.2 := by
  unfold reader
  rw [h.visited, h.layout]

theorem indentation (h : Reads R r r' out) : r'.layout.indentation = r.layout.indentation := by
  rw [h.layout]

theorem width (h : Reads R r r' out) : r'.layout.width = r.layout.width := by rw [h.layout]

theorem inhibitImages (h : Reads R r r' out) :
    r'.layout.inhibitImages = r.layout.inhibitImages := by rw [h.layout]

theorem trans (h₁ : Reads R r r' (t, a)) (h₂ : Reads R r' r'' (u, b)) :
    Reads R r r'' (t ++ u, b) where
  run := by rw [visible_append]; exact h₁.run.trans h₂.run
  layout := by
    have h := h₂.layout
    rw [h₁.layout] at h
    exact h
  visited := h₂.visited

theorem before {f : Buffer → Buffer} (hf : Buffer.Run R [] r.buffer (f r.buffer))
    (h : Reads R (r.onBuffer f) r' out) : Reads R r r' out :=
  ⟨hf.nil_trans h.run, h.layout, h.visited⟩

theorem after {f : Buffer → Buffer} (h : Reads R r r' out)
    (hf : Buffer.Run R [] r'.buffer (f r'.buffer)) : Reads R r (r'.onBuffer f) out :=
  ⟨h.run.trans_nil hf, h.layout, h.visited⟩

theorem afterText (h : Reads R r r' out) :
    Reads R r (r'.onLayout ({ · with kind := .text })) out :=
  ⟨h.run, congrArg (fun l : Layout => { l with kind := FlowKind.text }) h.layout, h.visited⟩

end Reads

section Rules
variable {R : RangeRule} {r : Renderer} {body : Renderer → Renderer} {out : Text × Reader}

theorem reads_inParagraph (h : Reads R (r.onBuffer (·.ensureParagraph))
    (body (r.onBuffer (·.ensureParagraph))) out) : Reads R r (inParagraph body r) out :=
  .before (Buffer.run_ensureParagraph _) (h.after (Buffer.run_ensureParagraph _))

theorem reads_inBlock (h : Reads R (r.onBuffer (·.ensureNewline))
    (body (r.onBuffer (·.ensureNewline))) out) : Reads R r (inBlock body r) out :=
  .before (Buffer.run_ensureNewline _) (h.after (Buffer.run_ensureNewline _))

theorem reads_lineBreak (r : Renderer) : Reads R r (lineBreak r) ([], r.reader) :=
  ((Reads.refl R r).after r.buffer.run_newline).afterText

theorem reads_indented {extra : Nat}
    (h : Reads R (r.onLayout ({ · with indentation := r.layout.indentation + extra }))
      (body (r.onLayout ({ · with indentation := r.layout.indentation + extra }))) out) :
    Reads R r (indented extra body r) out where
  run := h.run
  layout := by
    have := congrArg (fun l : Layout => { l with indentation := r.layout.indentation }) h.layout
    exact this
  visited := h.visited

theorem reads_insertText (s : Scene) (t : Text) (r : Renderer) :
    Reads R r (r.insertText s t) (t, r.reader) where
  run := Page.run_insert _ _ t
  layout := by
    have h : (r.insertText s t).layout = _ := Page.layout_insert s.options.rules r.page t
    rw [h]
    split <;> rfl
  visited := rfl

theorem reads_list {numbered : Bool} {e : Element} {t : Text} {a : Reader}
    (h : Reads R ((r.onBuffer (separateList (r.layout.list != .none))).onLayout
        ({ · with list := firstLabel numbered e }))
      (body ((r.onBuffer (separateList (r.layout.list != .none))).onLayout
        ({ · with list := firstLabel numbered e }))) (t, a)) :
    Reads R r (list numbered e body r) (t, { a with label := r.layout.list }) := by
  have hseparate (b : Buffer) : Buffer.Run R [] b (separateList (r.layout.list != .none) b) :=
    (flow_separateList _ b).run
  have hbody : Reads R r ((body ((r.onBuffer (separateList (r.layout.list != .none))).onLayout
      ({ · with list := firstLabel numbered e }))).onLayout ({ · with list := r.layout.list }))
      (t, { a with label := r.layout.list }) :=
    ⟨(hseparate _).nil_trans h.run,
      congrArg (fun l : Layout => { l with list := r.layout.list }) h.layout, h.visited⟩
  exact hbody.after (hseparate _)

theorem reads_labelled (r : Renderer) :
    Reads R r (labelled r) (labelText r.layout.list, r.reader) := by
  have hindent := Page.writes_indent (R := R) (r.onBuffer (·.ensureNewline)).page
  refine ⟨r.buffer.run_ensureNewline.nil_trans (hindent.run.nil_trans (.pushLabel _ _)), ?_, rfl⟩
  exact congrArg (fun l : Layout => { l with kind := FlowKind.text }) hindent.layout

theorem reads_item {t : Text} {a : Reader}
    (h : ∀ r', r'.layout.indentation = r.layout.indentation + (labelText r.layout.list).width →
      r'.layout.width = r.layout.width → r'.layout.inhibitImages = r.layout.inhibitImages →
      r'.reader = r.reader → Reads R r' (body r') (t, a)) :
    Reads R r (item body r)
      (labelText r.layout.list ++ t, { a with label := nextLabel a.label }) := by
  have hlabel := reads_labelled (R := R) r
  have hbody : Reads R (labelled r)
      (indented (labelText r.layout.list).width body (labelled r)) (t, a) := by
    refine reads_indented (h _ ?_ hlabel.width hlabel.inhibitImages hlabel.reader_eq)
    exact congrArg (· + _) hlabel.indentation
  have hitem := (hlabel.trans hbody).after (Buffer.run_ensureNewline _)
  exact ⟨hitem.run, congrArg (fun l : Layout => { l with list := nextLabel l.list }) hitem.layout,
    hitem.visited⟩

variable (hok : ∀ t start stop, RangeRule.tight t start stop → R t start stop)
include hok

theorem reads_region {mark : Mark}
    (h : Reads R (r.onBuffer (·.openRegion)) (body (r.onBuffer (·.openRegion))) out) :
    Reads R r (region mark body r) out := by
  rw [region_eq]
  exact ⟨Buffer.run_endRegion hok h.run mark, h.layout, h.visited⟩

theorem reads_inColors {s : Scene} {e : Element}
    (h : ∀ r', r'.layout = r.layout → r'.visited = r.visited → Reads R r' (body r') out) :
    Reads R r (inColors s e body r) out := by
  by_cases hframe : e.frame.1.isEmpty = true
  · rw [inColors_eq_of_isEmpty hframe]
    have := h (r.warn e.frame.2) rfl rfl
    exact ⟨this.run, this.layout, this.visited⟩
  · rw [inColors_eq hframe]
    have := h ({ r.warn e.frame.2 with styles := e.frame.1 :: r.styles }.onBuffer (·.openRegion))
      rfl rfl
    exact ⟨Buffer.run_endColors hok this.run _, this.layout, this.visited⟩

theorem reads_preformatted
    (h : ∀ r', r'.layout.indentation = r.layout.indentation → r'.layout.width = r.layout.width →
      r'.layout.inhibitImages = r.layout.inhibitImages → r'.reader = r.reader →
      Reads R r' (body r') out) :
    Reads R r (preformatted body r) out := by
  refine reads_inParagraph ?_
  generalize hq : r.onBuffer (·.ensureParagraph) = q
  have hregion : Reads R (q.onLayout ({ · with fold := .verbatim }))
      ((q.onLayout ({ · with fold := .verbatim })).region (.face .monospace) body) out := by
    subst hq
    exact reads_region hok (h _ rfl rfl rfl rfl)
  exact ⟨hregion.run, congrArg (fun l : Layout => { l with fold := q.layout.fold }) hregion.layout,
    hregion.visited⟩

theorem reads_ruler (r : Renderer) :
    Reads R r (ruler r)
      (List.replicate (max 1 (r.layout.width - r.layout.indentation)) '-', r.reader) := by
  rw [ruler_eq, Nat.max_comm]
  have hdashes : 0 < max 1 (r.layout.width - r.layout.indentation) := by omega
  have hrun := Buffer.run_putRuler hok r.buffer r.layout.indentation hdashes
  refine ⟨hrun.cast (visible_eq_self fun c hc => ?_).symm, rfl, rfl⟩
  rw [List.eq_of_mem_replicate hc]
  decide

theorem reads_image (s : Scene) (e : Element) (hr : r.layout.inhibitImages = false) :
    Reads R r (image s e r) (imageText s e, r.reader) := by
  obtain ⟨page, images, heq, hrun, hlayout⟩ := image_spec hok s e r
  rw [heq]
  have htext : imageTextIn s e r.layout = imageText s e := by simp [imageTextIn, hr]
  exact ⟨htext ▸ hrun, hlayout, rfl⟩

end Rules

/-! ### The descent -/

section Descent
variable {R : RangeRule} {s : Scene} {visit : NodeId → Renderer → Renderer}
  {read : Nat → NodeId → Reader → Text × Reader}

/-- The renderer shows images, and wraps at the width of the scene. -/
def Plain (s : Scene) (r : Renderer) : Prop :=
  r.layout.width = s.options.resolveWidth s.surface ∧ r.layout.inhibitImages = false

theorem Plain.of_reads {r r' : Renderer} {out : Text × Reader} (hr : Plain s r)
    (h : Reads R r r' out) : Plain s r' :=
  ⟨h.width.trans hr.1, h.inhibitImages.trans hr.2⟩

/-- Rendering a node writes what is read of it. -/
def ReadsAll (R : RangeRule) (s : Scene) (visit : NodeId → Renderer → Renderer)
    (read : Nat → NodeId → Reader → Text × Reader) : Prop :=
  ∀ id r, Plain s r → Reads R r (visit id r) (read r.layout.indentation id r.reader)

theorem reads_inOrder (h : ReadsAll R s visit read) (ids : List NodeId) (r : Renderer)
    (hr : Plain s r) : Reads R r (ids.foldl (fun r id => visit id r) r)
      (Reader.inOrder (read r.layout.indentation) ids r.reader) := by
  induction ids generalizing r with
  | nil => exact .refl R r
  | cons id ids ih =>
    have hid := h id r hr
    have hids := ih _ (hr.of_reads hid)
    rw [hid.reader_eq, hid.indentation] at hids
    exact hid.trans hids

/-- What is read of an element, by its role. -/
theorem element_eq (s : Scene) (read : Nat → NodeId → Reader → Text × Reader)
    (indentation : Nat) (id : NodeId) (e : Element) (a : Reader) :
    Reader.element s (.br :: Reader.unread) read indentation id e a =
      let below (indentation : Nat) := Reader.inOrder (read indentation) (s.tree.children id)
      match e.tag.role with
      | .hidden | .lineBreak => ([], a)
      | .head => Reader.inOrder (read indentation)
          ((s.tree.children id).filter fun child => s.tree.tag? child = some .title) a
      | .ruler =>
        (List.replicate (max 1 (s.options.resolveWidth s.surface - indentation)) '-', a)
      | .image =>
        (if (altText e).isEmpty && (fetchableSource? s e).isSome then ['*'] else altText e, a)
      | .media label =>
        if (e.filledAttr? "src").isSome then (label.toList, a) else below indentation a
      | .list numbered =>
        let out := below indentation { a with label := firstLabel numbered e }
        (out.1, { out.2 with label := a.label })
      | .item =>
        let out := below (indentation + (labelText a.label).width) a
        (labelText a.label ++ out.1, { out.2 with label := nextLabel out.2.label })
      | .quote | .definition => below (indentation + blockIndent) a
      | _ => below indentation a := by
  unfold Reader.element
  cases e.tag <;> rfl

theorem imageText_eq (s : Scene) (e : Element) : imageText s e =
    if (altText e).isEmpty && (fetchableSource? s e).isSome then ['*'] else altText e := by
  unfold imageText placeholder
  cases (fetchableSource? s e).isSome <;> cases (altText e).isEmpty <;> simp

variable (hok : ∀ t start stop, RangeRule.tight t start stop → R t start stop)
include hok

theorem reads_rule (h : ReadsAll R s visit read) (id : NodeId) (e : Element)
    (he : e.tag ≠ .table) (r : Renderer) (hr : Plain s r) :
    Reads R r (rule s visit id e r)
      (Reader.element s (.br :: Reader.unread) read r.layout.indentation id e r.reader) := by
  rw [element_eq]
  have hbelow (r : Renderer) (hr : Plain s r) : Reads R r (children s visit id r) _ :=
    reads_inOrder h (s.tree.children id) r hr
  unfold rule
  cases hrole : e.tag.role with
  | inline => exact hbelow r hr
  | hidden => exact .refl R r
  | head => exact reads_inOrder h _ r hr
  | paragraph => exact reads_inParagraph (hbelow _ hr)
  | block => exact reads_inBlock (hbelow _ hr)
  | lineBreak => exact reads_lineBreak r
  | ruler =>
    -- the width in force is that of the scene: only cells are narrower
    have := reads_ruler hok r
    rwa [hr.1] at this
  | heading => exact reads_inParagraph (reads_region hok (hbelow _ hr))
  | link =>
    dsimp only
    unfold link
    split
    · exact reads_region hok (hbelow _ hr)
    · exact hbelow r hr
  | image =>
    have := reads_image hok s e hr.2
    rwa [imageText_eq] at this
  | media label =>
    dsimp only
    unfold media
    split
    · rename_i hsrc
      rw [hsrc]
      exact hbelow r hr
    · rename_i src hsrc
      rw [hsrc]
      exact reads_region hok (reads_insertText s label.toList (r.onBuffer (·.openRegion)))
  | list numbered => exact reads_list (hbelow _ hr)
  | item =>
    refine reads_item fun r' hindent hwidth hinhibit hreader => ?_
    have := hbelow r' ⟨hwidth.trans hr.1, hinhibit.trans hr.2⟩
    rwa [hindent, hreader] at this
  | quote => exact reads_inParagraph (reads_indented (hbelow _ hr))
  | definition => exact reads_inBlock (reads_indented (hbelow _ hr))
  | preformatted =>
    refine reads_preformatted hok fun r' hindent hwidth hinhibit hreader => ?_
    have := hbelow r' ⟨hwidth.trans hr.1, hinhibit.trans hr.2⟩
    rwa [hindent, hreader] at this
  | table => exact absurd hrole (by revert he; cases e.tag <;> decide)
  | face f => exact reads_region hok (hbelow _ hr)

theorem reads_content (h : ReadsAll R s visit read) (id : NodeId) (c : Content)
    (hc : ∀ e, c = .element e → e.tag ≠ .table) (r : Renderer) (hr : Plain s r) :
    Reads R r (content s visit id c r)
      (Reader.content s (.br :: Reader.unread) read r.layout.indentation id c r.reader) := by
  cases c with
  | document => exact reads_inOrder h _ r hr
  | text t => exact reads_insertText s t r
  | comment t => exact .refl R r
  | element e =>
    refine reads_inColors hok fun r' hlayout hvisited => ?_
    have hreader : r'.reader = r.reader := by rw [reader, reader, hlayout, hvisited]
    have := reads_rule hok h id e (hc e rfl) r' (by rwa [Plain, hlayout])
    rwa [hlayout, hreader] at this

/-- Descending from a node writes what is read of it. -/
theorem reads_node (hs : s.tree.TableFree) (levels : Nat) :
    ReadsAll R s (node s levels) (Reader.node s (.br :: Reader.unread) levels) := by
  induction levels with
  | zero => exact fun id r _ => ⟨.refl _, rfl, rfl⟩
  | succ levels ih =>
    intro id r hr
    unfold node Reader.node
    cases hget : s.tree.get? id with
    | none => exact .refl R r
    | some n =>
      by_cases hmem : id ∈ r.visited
      · simp only [reader, hmem, if_true]
        exact ⟨.refl _, rfl, rfl⟩
      · simp only [reader, hmem, if_false]
        have htag (e : Element) (he : n.content = .element e) : e.tag ≠ .table := fun h =>
          hs id (by simp [Tree.tag?, Tree.element?, hget, he, h])
        have := reads_content hok ih id n.content htag
          { r with visited := id :: r.visited, path := id :: r.path } hr
        exact ⟨this.run, this.layout, this.visited⟩

end Descent

theorem plain_start (s : Scene) (cache : CellCache) : Plain s (start s cache) := ⟨rfl, rfl⟩

/-- The result is the finished text, with a newline if there is any. -/
theorem text_finish_cases (r : Renderer) :
    r.finish.text = r.buffer.finish.1 ∨ r.finish.text = r.buffer.finish.1 ++ ['\n'] := by
  unfold finish
  dsimp only
  split
  · rename_i h
    exact .inl (List.isEmpty_iff.1 h).symm
  · exact .inr rfl

@[simp] theorem visible_finish (r : Renderer) : visible r.finish.text = visible r.buffer.text := by
  rw [← Buffer.visible_finish]
  rcases text_finish_cases r with h | h
  · rw [h]
  · rw [h]
    exact (visible_append ..).trans (List.append_nil _)

/-- What is shown of a page is what was read since it was empty. -/
theorem visible_of_reads {R : RangeRule} {s : Scene} {cache : CellCache} {r : Renderer}
    {out : Text × Reader} (h : Reads R (start s cache) r out) :
    visible r.finish.text = visible out.1 := by
  rw [visible_finish, h.run.visible]
  rfl

end Renderer

open Renderer

/-- Outside tables nothing visible is lost, doubled or moved: what is shown is what is read, where
nothing is read of line breaks either. -/
theorem visible_renderWith (s : Scene) (hs : s.tree.TableFree) (id : NodeId) (cache : CellCache) :
    visible (renderWith s id cache).rendered.text =
      visible (Reader.node s (.br :: Reader.unread) Tree.maxDepth 0 id {}).1 :=
  visible_of_reads (reads_node (R := RangeRule.tight) (fun _ _ _ h => h) hs Tree.maxDepth id _
    (plain_start s cache.clear))

/-- A text, and a line break that has a text below it. -/
def breakAround : Tree :=
  let t := (({} : Tree).add Tree.root (.text ['a'])).2
  let (id, t) := t.addElement Tree.root "br".toList []
  (t.add id (.text ['b'])).2

theorem visible_renderWith_breakAround :
    breakAround.TableFree ∧
      visible (renderWith { tree := breakAround } Tree.root {}).rendered.text = ['a'] :=
  ⟨by decide, (visible_renderWith _ (by decide) Tree.root {}).trans (by decide)⟩

theorem visible_breakAround_ne :
    breakAround.TableFree ∧
      visible (renderWith { tree := breakAround } Tree.root {}).rendered.text ≠
        visible
          (Reader.node { tree := breakAround } Reader.unread Tree.maxDepth 0 Tree.root {}).1 := by
  have hs : breakAround.TableFree := by decide
  have h := visible_of_reads (reads_node (R := RangeRule.tight) (s := { tree := breakAround })
    (fun _ _ _ h => h) hs Tree.maxDepth Tree.root _ (plain_start _ {}))
  exact ⟨hs, fun heq => absurd (h.symm.trans heq) (by decide)⟩

end MarkupText
