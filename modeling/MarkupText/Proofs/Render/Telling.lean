import MarkupText.Proofs.Buffer.Colors
import MarkupText.Proofs.Render.Written

/-!
# Renders tell what is written

`Written.tell` plays a writing on a `Tale`: texts are written, and an element opens a region before
its content for its mark and one for its colors, and closes them after it. What the renderer does to
its buffer while it descends is exactly that, as far as a buffer is told (`tells_node`): the
splices, blanks and line ends in between leave no trace. Each rule has one lemma, beside the one of
`Reads` that says what it reads.
-/

namespace MarkupText

open Text

namespace Written

/-- Tells what is inside an element with a mark. -/
def tellMarked (mark? : Option Mark) (step : Tale → Tale) (t : Tale) : Tale :=
  match mark? with
  | none => step t
  | some mark => (step t.openRegion).endRegion mark

/-- Tells what is inside an element with the colors that it declares. -/
def tellColored (s : Scene) (styles : StyleStack) (e : Element) (step : StyleStack → Tale → Tale)
    (t : Tale) : Tale :=
  if e.frame.1.isEmpty then step styles t
  else
    (step (e.frame.1 :: styles) t.openRegion).endColors
      (Renderer.visibleColors s (e.frame.1 :: styles))

/-- Tells what is written, with the given styles in force. -/
def tell (s : Scene) : StyleStack → Written → Tale → Tale
  | _, nil, t => t
  | _, text u, t => t.write u.visible
  | styles, append v w, t => tell s styles w (tell s styles v t)
  | styles, inside _ e w, t =>
    tellColored s styles e (fun styles => tellMarked e.regionMark? (tell s styles w)) t

end Written

theorem Element.regionMark?_eq (e : Element) : e.regionMark? =
    match e.tag.role with
    | .heading => some (.face .bold)
    | .preformatted => some (.face .monospace)
    | .face f => some (.face f)
    | .link => (e.filledAttr? "href").map fun href => .link href.trim
    | .media _ => (e.filledAttr? "src").map fun src => .link src.trim
    | _ => none := by
  unfold Element.regionMark?
  cases e.tag <;> rfl

namespace Renderer

/-- The renderer `r'` has written, after `r`, what was read, and its tale has made a step. -/
structure Tells (r r' : Renderer) (step : Tale → Tale) (out : Text × Reader) : Prop where
  reads : Reads RangeRule.tight r r' out
  styles : r'.styles = r.styles
  told : ∀ t, r.buffer.Told t → r'.buffer.Told (step t)

namespace Tells
variable {step step₁ step₂ : Tale → Tale} {r r' r'' : Renderer} {out : Text × Reader}
  {t u : Text} {a b : Reader}

theorem refl (r : Renderer) : Tells r r id ([], r.reader) := ⟨.refl _ r, rfl, fun _ h => h⟩

theorem trans (h₁ : Tells r r' step₁ (t, a)) (h₂ : Tells r' r'' step₂ (u, b)) :
    Tells r r'' (step₂ ∘ step₁) (t ++ u, b) where
  reads := h₁.reads.trans h₂.reads
  styles := h₂.styles.trans h₁.styles
  told t ht := h₂.told _ (h₁.told t ht)

theorem before {f : Buffer → Buffer} (hf : r.buffer.Flow [] (f r.buffer))
    (h : Tells (r.onBuffer f) r' step out) : Tells r r' step out where
  reads := h.reads.before hf.run
  styles := h.styles
  told t ht := h.told t (ht.blank hf)

theorem after {f : Buffer → Buffer} (h : Tells r r' step out)
    (hf : r'.buffer.Flow [] (f r'.buffer)) : Tells r (r'.onBuffer f) step out where
  reads := h.reads.after hf.run
  styles := h.styles
  told t ht := (h.told t ht).blank hf

end Tells

section Rules
variable {step : Tale → Tale} {r : Renderer} {body : Renderer → Renderer} {out : Text × Reader}

theorem tells_insertText (s : Scene) (t : Text) (r : Renderer) :
    Tells r (r.insertText s t) (·.write t.visible) (t, r.reader) where
  reads := reads_insertText s t r
  styles := rfl
  told _ hr := hr.flow (Page.flow_insert _ _ t)

theorem tells_inParagraph (h : Tells (r.onBuffer (·.ensureParagraph))
    (body (r.onBuffer (·.ensureParagraph))) step out) : Tells r (inParagraph body r) step out :=
  .before r.buffer.flow_ensureParagraph (h.after (Buffer.flow_ensureParagraph _))

theorem tells_inBlock (h : Tells (r.onBuffer (·.ensureNewline))
    (body (r.onBuffer (·.ensureNewline))) step out) : Tells r (inBlock body r) step out :=
  .before r.buffer.flow_ensureNewline (h.after (Buffer.flow_ensureNewline _))

theorem tells_lineBreak (r : Renderer) : Tells r (lineBreak r) id ([], r.reader) :=
  ⟨reads_lineBreak r, rfl, fun _ hr => hr.blank r.buffer.flow_newline⟩

theorem tells_indented {extra : Nat}
    (h : Tells (r.onLayout ({ · with indentation := r.layout.indentation + extra }))
      (body (r.onLayout ({ · with indentation := r.layout.indentation + extra }))) step out) :
    Tells r (indented extra body r) step out :=
  ⟨reads_indented h.reads, h.styles, h.told⟩

theorem tells_region {mark : Mark} (hmark : mark.isRegion = true)
    (h : Tells (r.onBuffer (·.openRegion)) (body (r.onBuffer (·.openRegion))) step out) :
    Tells r (region mark body r) (fun t => (step t.openRegion).endRegion mark) out := by
  have hreads : Reads RangeRule.tight r (region mark body r) out :=
    reads_region (fun _ _ _ h => h) h.reads
  rw [region_eq] at hreads ⊢
  exact ⟨hreads, h.styles, fun t hr => (h.told _ hr.openRegion).endRegion hmark⟩

theorem tells_preformatted
    (h : ∀ r', r'.layout.indentation = r.layout.indentation → r'.layout.width = r.layout.width →
      r'.layout.inhibitImages = r.layout.inhibitImages → r'.reader = r.reader →
      r'.styles = r.styles → Tells r' (body r') step out) :
    Tells r (preformatted body r) (fun t => (step t.openRegion).endRegion (.face .monospace))
      out := by
  refine tells_inParagraph ?_
  generalize hq : r.onBuffer (·.ensureParagraph) = q
  have hregion : Tells (q.onLayout ({ · with fold := .verbatim }))
      ((q.onLayout ({ · with fold := .verbatim })).region (.face .monospace) body)
      (fun t => (step t.openRegion).endRegion (.face .monospace)) out := by
    subst hq
    exact tells_region rfl (h _ rfl rfl rfl rfl rfl)
  have hlayout := congrArg (fun l : Layout => { l with fold := q.layout.fold }) hregion.reads.layout
  exact ⟨⟨hregion.reads.run, hlayout, hregion.reads.visited⟩, hregion.styles, hregion.told⟩

theorem tells_ruler (r : Renderer) : Tells r (ruler r)
      (·.write (visible (List.replicate (max 1 (r.layout.width - r.layout.indentation)) '-')))
      (List.replicate (max 1 (r.layout.width - r.layout.indentation)) '-', r.reader) := by
  have hd : 0 < max 1 (r.layout.width - r.layout.indentation) := by omega
  refine ⟨reads_ruler (fun _ _ _ h => h) r, rfl, fun t hr => ?_⟩
  rw [ruler_eq, Nat.max_comm]
  generalize max 1 (r.layout.width - r.layout.indentation) = dashes at hd
  have hblank : r.buffer.Flow []
      (r.buffer.ensureNewline.push (spaces r.layout.indentation)) :=
    r.buffer.flow_ensureNewline.nil_trans (.push_blank _ (visible_spaces _))
  have hdashes := (hr.blank hblank).flow (.push _ (List.replicate dashes '-'))
  have hmarked := hdashes.annotate (Buffer.tight_dashes _ hd)
    (rfl : Mark.ruler.isRegion = false) rfl
  exact hmarked.blank (Buffer.flow_newline _)

theorem told_requestImage (s : Scene) (e : Element) (source : Text) (start : Nat) {t : Tale}
    (hr : r.buffer.Told t) : (requestImage s e source start r).buffer.Told t := by
  unfold requestImage
  split
  · exact hr
  · rename_i hrange
    exact hr.annotate (Buffer.tight_of_visibleRange hrange)
      (rfl : (Mark.image _).isRegion = false) rfl

theorem tells_image (s : Scene) (e : Element) (hr : r.layout.inhibitImages = false) :
    Tells r (image s e r) (·.write (visible (imageText s e))) (imageText s e, r.reader) := by
  have hreads := reads_image (R := RangeRule.tight) (fun _ _ _ h => h) s e hr
  have himage := image_eq s e r
  cases hsource : fetchableSource? s e with
  | none =>
    have htext : imageText s e = altText e := by simp [imageText, hsource]
    rw [hsource] at himage
    rw [himage, htext]
    exact tells_insertText s (altText e) r
  | some source =>
    have htext : imageText s e = placeholder (altText e) := by simp [imageText, hsource]
    simp only [hsource, hr, Bool.false_eq_true, if_false] at himage
    have hflow := Page.flow_insert s.options.rules (r.page.onBuffer (·.openRegion))
      (placeholder (altText e))
    generalize Page.insert _ _ _ = q at himage hflow
    rw [himage] at hreads ⊢
    refine ⟨hreads, ?_, fun t ht => ?_⟩
    · unfold requestImage
      split <;> rfl
    · rw [htext]
      exact told_requestImage (r := { r with page := { q with buffer := q.buffer.closeRegion.2 } })
        s e source _ (ht.flow_region hflow)

theorem tells_list {numbered : Bool} {e : Element} {t : Text} {a : Reader}
    (h : Tells ((r.onBuffer (separateList (r.layout.list != .none))).onLayout
        ({ · with list := firstLabel numbered e }))
      (body ((r.onBuffer (separateList (r.layout.list != .none))).onLayout
        ({ · with list := firstLabel numbered e }))) step (t, a)) :
    Tells r (list numbered e body r) step (t, { a with label := r.layout.list }) :=
  ⟨reads_list h.reads, h.styles, fun t hr =>
    (h.told t (hr.blank (flow_separateList _ _))).blank (flow_separateList _ _)⟩

theorem tells_labelled (r : Renderer) :
    Tells r (labelled r) (·.write (visible (labelText r.layout.list)))
      (labelText r.layout.list, r.reader) := by
  have hflow := r.buffer.flow_ensureNewline.nil_trans
    (Page.pours_indent (r.onBuffer (·.ensureNewline)).page).flow
  exact ⟨reads_labelled r, rfl, fun t hr => (hr.blank hflow).pushLabel _⟩

theorem tells_item {t : Text} {a : Reader}
    (h : ∀ r', r'.layout.indentation = r.layout.indentation + (labelText r.layout.list).width →
      r'.layout.width = r.layout.width → r'.layout.inhibitImages = r.layout.inhibitImages →
      r'.reader = r.reader → r'.styles = r.styles → Tells r' (body r') step (t, a)) :
    Tells r (item body r) (fun t => step (t.write (visible (labelText r.layout.list))))
      (labelText r.layout.list ++ t, { a with label := nextLabel a.label }) := by
  have hlabel := tells_labelled r
  have hbody : Tells (labelled r)
      (indented (labelText r.layout.list).width body (labelled r)) step (t, a) := by
    refine tells_indented (h _ ?_ hlabel.reads.width hlabel.reads.inhibitImages
      hlabel.reads.reader_eq rfl)
    exact congrArg (· + _) hlabel.reads.indentation
  have hitem := (hlabel.trans hbody).after (Buffer.flow_ensureNewline _)
  have hlayout :=
    congrArg (fun l : Layout => { l with list := nextLabel l.list }) hitem.reads.layout
  exact ⟨⟨hitem.reads.run, hlayout, hitem.reads.visited⟩, hitem.styles, hitem.told⟩

theorem tells_inColors {s : Scene} {e : Element} (step : StyleStack → Tale → Tale)
    (h : ∀ r', r'.layout = r.layout → r'.visited = r.visited →
      Tells r' (body r') (step r'.styles) out) :
    Tells r (inColors s e body r) (Written.tellColored s r.styles e step) out := by
  have hreads := reads_inColors (s := s) (e := e) (fun _ _ _ h => h)
    fun r' hlayout hvisited => (h r' hlayout hvisited).reads
  unfold Written.tellColored
  by_cases hframe : e.frame.1.isEmpty = true
  · rw [inColors_eq_of_isEmpty hframe] at hreads ⊢
    simp only [hframe, if_true]
    have := h (r.warn e.frame.2) rfl rfl
    exact ⟨hreads, this.styles, this.told⟩
  · rw [inColors_eq hframe] at hreads ⊢
    have hbody := h ({ r.warn e.frame.2 with styles := e.frame.1 :: r.styles }.onBuffer
      (·.openRegion)) rfl rfl
    dsimp only at hreads ⊢
    generalize body _ = q at hbody hreads ⊢
    -- the colors are resolved after the body, from the styles that were pushed before it
    have hstyles : q.styles = e.frame.1 :: r.styles := hbody.styles
    rw [hstyles] at hreads ⊢
    refine ⟨hreads, rfl, fun t hr => ?_⟩
    rw [if_neg hframe]
    exact (hbody.told _ hr.openRegion).endColors _

end Rules

/-! ### The descent -/

section Descent
variable {s : Scene} {visit : NodeId → Renderer → Renderer}
  {write : Nat → NodeId → Reader → Written × Reader}

/-- The renderer has written this after `r`, and its tale tells it. -/
abbrev TellsWritten (s : Scene) (r r' : Renderer) (out : Written × Reader) : Prop :=
  Tells r r' (out.1.tell s r.styles) (Written.reading out)

theorem account_tells (s : Scene) : Account (TellsWritten s) where
  reads h := h.reads
  nil {r r'} hpage hvisited hstyles :=
    have hbuffer : r'.buffer = r.buffer := congrArg Page.buffer hpage
    ⟨.of_page_eq hpage hvisited, hstyles, fun _ ht => hbuffer ▸ ht⟩
  append h₁ h₂ := by
    unfold TellsWritten at h₂
    rw [h₁.styles] at h₂
    exact h₁.trans h₂
  entered _ _ _ h := ⟨⟨h.reads.run, h.reads.layout, h.reads.visited⟩, h.styles, h.told⟩

theorem tells_rule (h : Accounts (TellsWritten s) s visit write) (id : NodeId) (e : Element)
    (he : e.tag ≠ .table) (r : Renderer) (hr : Plain s r) :
    let out := Written.element s write r.layout.indentation id e r.reader
    Tells r (rule s visit id e r) (Written.tellMarked e.regionMark? (out.1.tell s r.styles))
      (Written.reading out) := by
  have hbelow (r : Renderer) (hr : Plain s r) : TellsWritten s r (children s visit id r) _ :=
    (account_tells s).inOrder h (s.tree.children id) r hr
  dsimp only
  rw [Element.regionMark?_eq]
  unfold rule Written.element
  cases hrole : e.tag.role with
  | inline => exact hbelow r hr
  | hidden => exact .refl r
  | head => exact (account_tells s).inOrder h _ r hr
  | paragraph => exact tells_inParagraph (hbelow _ hr)
  | block => exact tells_inBlock (hbelow _ hr)
  | lineBreak => exact tells_lineBreak r
  | ruler =>
    -- the width in force is that of the scene: only cells are narrower
    have := tells_ruler r
    rwa [hr.1] at this
  | heading => exact tells_inParagraph (tells_region rfl (hbelow _ hr))
  | link =>
    dsimp only
    unfold link
    cases e.filledAttr? "href" with
    | none => exact hbelow r hr
    | some href => exact tells_region rfl (hbelow _ hr)
  | image => exact tells_image s e hr.2
  | media label =>
    dsimp only
    unfold media
    cases e.filledAttr? "src" with
    | none => exact hbelow r hr
    | some source =>
      exact tells_region rfl (tells_insertText s label.toList (r.onBuffer (·.openRegion)))
  | list numbered => exact tells_list (hbelow _ hr)
  | item =>
    refine tells_item fun r' hindent hwidth hinhibit hreader hstyles => ?_
    have := (account_tells s).below h id hr _ hindent hwidth hinhibit hreader
    unfold TellsWritten at this
    rwa [hstyles] at this
  | quote => exact tells_inParagraph (tells_indented (hbelow _ hr))
  | definition => exact tells_inBlock (tells_indented (hbelow _ hr))
  | preformatted =>
    refine tells_preformatted fun r' hindent hwidth hinhibit hreader hstyles => ?_
    have := (account_tells s).below h id hr 0 hindent hwidth hinhibit hreader
    unfold TellsWritten at this
    rwa [hstyles] at this
  | table => exact absurd hrole (by revert he; cases e.tag <;> decide)
  | face f => exact tells_region rfl (hbelow _ hr)

/-- Descending from a node writes it, and the tale tells it. -/
theorem tells_node (hs : s.tree.TableFree) (levels : Nat) :
    Accounts (TellsWritten s) s (node s levels) (Written.node s levels) := by
  refine (account_tells s).node hs (tells_insertText s) (fun {visit write} h id e he r hr => ?_)
    levels
  refine tells_inColors (fun styles => Written.tellMarked e.regionMark?
    ((Written.element s write r.layout.indentation id e r.reader).1.tell s styles))
    fun r' hlayout hvisited => ?_
  have hreader : r'.reader = r.reader := by rw [reader, reader, hlayout, hvisited]
  have := tells_rule h id e he r' (by rwa [Plain, hlayout])
  rwa [hlayout, hreader] at this

end Descent

/-! ### The result -/

theorem seen_finish (r : Renderer) : seen r.finish.text = seen r.buffer.finish.1 := by
  rcases text_finish_cases r with h | h
  · rw [h]
  · rw [h]
    exact seen_append_blank rfl _

/-- The result of a render tells what is written. -/
theorem told_renderWith {s : Scene} (hs : s.tree.TableFree) (id : NodeId) (cache : CellCache) :
    let out := (renderWith s id cache).rendered
    let t := (Written.node s Tree.maxDepth 0 id {}).1.tell s [] {}
    Tale.Kept t.passages (Tale.passagesOf out.text out.spans) ∧
      t.colors = Tale.colorsOf out.text out.spans := by
  have h := tells_node hs Tree.maxDepth id _ (plain_start s cache.clear)
  have hseen := seen_finish (node s Tree.maxDepth id (start s cache.clear))
  have hfinish := (h.told {} Buffer.told_empty).finish
  unfold Tale.passagesOf Tale.colorsOf at hfinish ⊢
  rw [← hseen] at hfinish
  exact hfinish

end Renderer
end MarkupText
