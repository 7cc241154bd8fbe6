import MarkupText.Proofs.Flow.Run
import MarkupText.Render.Rules

/-!
# Rules as edits of the buffer

What a rule does around the content of its element are edits of the buffer, with the layout changed
in between. `Buffer.endRegion` and `Buffer.endColors` are the edits that close a region
(`region_eq`, `inColors_eq`). Each edit is a run that appends the visible characters it writes, if
ranges without spaces at their ends may be marked.
-/

namespace MarkupText

open Text

/-- Whether a rule marks the content of its element like this: with a face or as a link. -/
def Mark.isRegion : Mark → Bool
  | .face _ | .link _ => true
  | _ => false

namespace Buffer

/-- Marks a range without the spaces and newlines around it. -/
def markVisible (start stop : Nat) (mark : Mark) (b : Buffer) : Buffer :=
  match b.visibleRange start stop with
  | some (start, stop) => b.annotate start stop mark
  | none => b

/-- Closes the innermost region and marks it. -/
def endRegion (mark : Mark) (b : Buffer) : Buffer :=
  b.closeRegion.2.markVisible b.closeRegion.1 b.closeRegion.2.size mark

/-- Colors the text from `start` on, except the parts that have a color already. -/
def colorize (start : Nat) (colors : ColorPair) (b : Buffer) : Buffer :=
  if colors.isEmpty then b
  else match b.visibleRange start b.size with
    | none => b
    | some (start, stop) =>
      (Renderer.uncolored b.spans start stop).foldl (fun b (s, e) =>
        b.markVisible s e (.colors colors.foreground colors.background)) b

/-- Closes the innermost region and colors it. -/
def endColors (colors : ColorPair) (b : Buffer) : Buffer :=
  b.closeRegion.2.colorize b.closeRegion.1 colors

/-- Writes a ruler from the indentation on. -/
def putRuler (indentation dashes : Nat) (b : Buffer) : Buffer :=
  let b := b.ensureNewline.push (spaces indentation)
  let start := b.size
  let b := b.push (List.replicate dashes '-')
  (b.annotate start b.size .ruler).newline

@[simp] theorem text_markVisible (b : Buffer) (start stop : Nat) (mark : Mark) :
    (b.markVisible start stop mark).text = b.text := by
  unfold markVisible
  split
  · exact text_annotate ..
  · rfl

/-- Coloring marks some ranges, one after the other. -/
theorem colorize_induct {P : Buffer → Prop} (colors : ColorPair)
    (h : ∀ c start stop, P c →
      P (c.markVisible start stop (.colors colors.foreground colors.background)))
    {b : Buffer} (hb : P b) (start : Nat) : P (b.colorize start colors) := by
  unfold colorize
  split
  · exact hb
  · split
    · exact hb
    · rename_i s e hrange
      clear hrange
      generalize Renderer.uncolored b.spans s e = ranges
      induction ranges generalizing b with
      | nil => exact hb
      | cons range ranges ih => exact ih (h b range.1 range.2 hb)

/-- A ruler begins and ends with a dash. -/
theorem tight_dashes (b : Buffer) {dashes : Nat} (hd : 0 < dashes) :
    RangeRule.tight (b.push (List.replicate dashes '-')).text b.size
      (b.push (List.replicate dashes '-')).size := by
  have hdash : Shown '-' := by decide
  obtain ⟨n, rfl⟩ : ∃ n, dashes = n + 1 := ⟨dashes - 1, by omega⟩
  refine ⟨⟨'-', ⟨b.text, List.replicate n '-', rfl, rfl⟩, hdash⟩, .of_getLast? ?_ hdash⟩
  rw [text_push, List.getLast?_append, List.getLast?_replicate]
  rfl

variable {R : RangeRule} (hok : ∀ t start stop, RangeRule.tight t start stop → R t start stop)
variable {b c : Buffer} {t : Text}
include hok

theorem run_markVisible (b : Buffer) (start stop : Nat) (mark : Mark) :
    Run R [] b (b.markVisible start stop mark) := by
  unfold markVisible
  split
  · rename_i h
    exact .annotate (hok _ _ _ (tight_of_visibleRange h)) mark
  · exact .refl b

theorem run_endRegion (h : Run R t b.openRegion c) (mark : Mark) : Run R t b (c.endRegion mark) :=
  h.region.trans_nil (run_markVisible hok _ _ _ mark)

theorem run_colorize (b : Buffer) (start : Nat) (colors : ColorPair) :
    Run R [] b (b.colorize start colors) :=
  colorize_induct colors (fun c start stop hc => hc.trans (run_markVisible hok c start stop _))
    (.refl b) start

theorem run_endColors (h : Run R t b.openRegion c) (colors : ColorPair) :
    Run R t b (c.endColors colors) :=
  h.region.trans_nil (run_colorize hok _ _ colors)

theorem run_putRuler (b : Buffer) (indentation : Nat) {dashes : Nat} (hd : 0 < dashes) :
    Run R (List.replicate dashes '-') b (b.putRuler indentation dashes) := by
  have hvis : visible (List.replicate dashes '-') = List.replicate dashes '-' :=
    visible_eq_self fun c hc => by rw [List.eq_of_mem_replicate hc]; decide
  refine .nil_trans b.run_ensureNewline ?_
  refine .nil_trans (.push_blank _ (visible_spaces indentation)) ?_
  refine .trans_nil ((Run.push _ (List.replicate dashes '-')).cast hvis) ?_
  exact .trans_nil (.annotate (hok _ _ _ (tight_dashes _ hd)) .ruler) (run_newline _)

end Buffer

namespace Renderer
variable {r : Renderer} {s : Scene} {e : Element} {body : Renderer → Renderer}

/-! ### Regions -/

theorem markVisible_eq (start stop : Nat) (mark : Mark) (r : Renderer) :
    r.markVisible start stop mark = r.onBuffer (·.markVisible start stop mark) := by
  have h : (r.onBuffer (·.markVisible start stop mark)) =
      r.onBuffer fun _ => r.buffer.markVisible start stop mark := rfl
  rw [h, markVisible, Buffer.markVisible]
  cases r.buffer.visibleRange start stop <;> rfl

theorem colorize_eq (start : Nat) (colors : ColorPair) (r : Renderer) :
    r.colorize start colors = r.onBuffer (·.colorize start colors) := by
  have hall (ranges : List (Nat × Nat)) (mark : Mark) (r : Renderer) :
      ranges.foldl (fun r (s, e) => r.markVisible s e mark) r =
        r.onBuffer fun b => ranges.foldl (fun b (s, e) => b.markVisible s e mark) b := by
    induction ranges generalizing r with
    | nil => rfl
    | cons range ranges ih =>
      change ranges.foldl _ (r.markVisible range.1 range.2 mark) = _
      rw [markVisible_eq, ih]
      rfl
  have h : r.onBuffer (·.colorize start colors) =
      r.onBuffer fun _ => r.buffer.colorize start colors := rfl
  rw [h, colorize, Buffer.colorize]
  split
  · rfl
  · cases r.buffer.visibleRange start r.buffer.size with
    | none => rfl
    | some range => exact hall _ _ r

theorem region_eq (mark : Mark) (body : Renderer → Renderer) (r : Renderer) :
    r.region mark body = (body (r.onBuffer (·.openRegion))).onBuffer (·.endRegion mark) :=
  markVisible_eq ..

theorem ruler_eq (r : Renderer) :
    ruler r = (r.onBuffer (·.putRuler r.layout.indentation
      (max (r.layout.width - r.layout.indentation) 1))).onLayout ({ · with kind := .text }) := rfl

/-- A list is set apart by blanks only. -/
theorem flow_separateList (nested : Bool) (b : Buffer) : b.Flow [] (separateList nested b) := by
  unfold separateList
  split
  · exact b.flow_ensureNewline
  · exact b.flow_ensureParagraph

/-- The renderer after the label of a list item. -/
def labelled (r : Renderer) : Renderer :=
  (((r.onBuffer (·.ensureNewline)).onPage (·.indent)).onBuffer
    (·.pushLabel (labelText r.layout.list))).onLayout ({ · with kind := .text })

/-- A list item is its label, and its content on lines of its own. -/
theorem item_eq (body : Renderer → Renderer) (r : Renderer) : item body r =
    ((indented (labelText r.layout.list).width body (labelled r)).onBuffer
      (·.ensureNewline)).onLayout fun l => { l with list := nextLabel l.list } := rfl

/-- The readable colors of a region under the colors in force. -/
def visibleColors (s : Scene) (styles : StyleStack) : ColorPair :=
  Contrast.resolveVisible s.options.contrast s.surface.foreground s.surface.background
    styles.resolve

theorem inColors_eq_of_isEmpty (h : e.frame.1.isEmpty = true) :
    inColors s e body r = body (r.warn e.frame.2) :=
  if_pos h

theorem inColors_eq (h : ¬ e.frame.1.isEmpty = true) :
    inColors s e body r =
      let r := body ({ r.warn e.frame.2 with styles := e.frame.1 :: r.styles }.onBuffer
        (·.openRegion))
      { r with styles := r.styles.tail }.onBuffer (·.endColors (visibleColors s r.styles)) := by
  unfold inColors
  generalize e.frame = frame at h ⊢
  exact (if_neg h).trans (colorize_eq ..)

/-! ### Images -/

/-- The alternative text of an image. -/
def altText (e : Element) : Text := ((e.attr? "alt").map Text.trim).getD []

/-- The text that an image leaves: the alternative text, or the placeholder if it is fetched. -/
def imageText (s : Scene) (e : Element) : Text :=
  if (fetchableSource? s e).isSome then placeholder (altText e) else altText e

/-- The text that an image leaves where images may be held back. -/
def imageTextIn (s : Scene) (e : Element) (l : Layout) : Text :=
  if l.inhibitImages && (fetchableSource? s e).isSome then [] else imageText s e

/-- What is requested for an image after `taken` others. -/
def request (s : Scene) (e : Element) (source : Text) (taken : Nat) : ImageRequest where
  token := min taken (numberBound - 1)
  source := source
  alt := altText e
  widthHint := dimension? e "width"
  heightHint := dimension? e "height"
  maxProportion := s.options.maxImageProportion

/-- Marks a placeholder that starts at `start`, and requests its image. -/
def requestImage (s : Scene) (e : Element) (source : Text) (start : Nat) (r : Renderer) :
    Renderer :=
  match r.buffer.visibleRange start r.buffer.size with
  | none => r
  | some (start, stop) =>
    ({ r with images := r.images ++ [request s e source r.images.length] }.onBuffer
      (·.annotate start stop (.image (request s e source r.images.length)))).onLayout
        ({ · with kind := .image })

/-- How an image is written: a region with the placeholder, then its mark and its request. -/
theorem image_eq (s : Scene) (e : Element) (r : Renderer) : image s e r =
    match fetchableSource? s e with
    | none => r.insertText s (altText e)
    | some source =>
      if r.layout.inhibitImages then r
      else
        let q := (r.page.onBuffer (·.openRegion)).insert s.options.rules (placeholder (altText e))
        requestImage s e source q.buffer.closeRegion.1
          { r with page := { q with buffer := q.buffer.closeRegion.2 } } := rfl

/-- An image writes its text and changes, of all the rest, only the requests and the kind of what
was written last. -/
theorem image_spec {R : RangeRule}
    (hok : ∀ t start stop, RangeRule.tight t start stop → R t start stop) (s : Scene) (e : Element)
    (r : Renderer) : ∃ page images, image s e r = { r with page, images } ∧
      Buffer.Run R (visible (imageTextIn s e r.layout)) r.buffer page.buffer ∧
      page.layout = { r.layout with kind := page.layout.kind } := by
  have hinsert (t : Text) (p : Page) : (p.insert s.options.rules t).layout =
      { p.layout with kind := (p.insert s.options.rules t).layout.kind } := by
    rw [Page.layout_insert]; split <;> rfl
  rw [image_eq, imageTextIn, imageText]
  cases fetchableSource? s e with
  | none =>
    simp only [Option.isSome_none, Bool.and_false]
    exact ⟨_, r.images, rfl, Page.run_insert _ _ _, hinsert _ _⟩
  | some source =>
    cases hinhibit : r.layout.inhibitImages with
    | true => exact ⟨r.page, r.images, rfl, .refl _, rfl⟩
    | false =>
      have hrun := Page.run_insert (R := R) s.options.rules
        (r.page.onBuffer (·.openRegion)) (placeholder (altText e))
      have hlayout := hinsert (placeholder (altText e)) (r.page.onBuffer (·.openRegion))
      dsimp only
      generalize Page.insert _ _ _ = q at hrun hlayout ⊢
      unfold requestImage
      split
      · rename_i h; cases h
      · split
        · exact ⟨_, _, rfl, hrun.region, hlayout⟩
        · rename_i start stop hv
          refine ⟨_, _, rfl, hrun.region.trans_nil
            (.annotate (hok _ _ _ (Buffer.tight_of_visibleRange hv)) _), ?_⟩
          exact congrArg (fun l : Layout => { l with kind := FlowKind.image }) hlayout

end Renderer
end MarkupText
