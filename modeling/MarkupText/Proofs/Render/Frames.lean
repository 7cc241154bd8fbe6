import MarkupText.Proofs.Render.Visit
import MarkupText.Proofs.Table.Aligned

/-!
# What visits leave as it was

A visit puts back the layout, all but the label of the next list item and the kind of what was
written last (`base_node`). The nodes entered on a page are those that a visit enters, and
of the rules only that of an image makes a request: cells are rendered aside.
-/

namespace MarkupText

/-- The layout without what content leaves behind in it. -/
def Layout.base (l : Layout) : Layout := { l with list := .none, kind := .text }

/-- Whether images are held back, and how deep in tables the page is. -/
def Layout.holding (l : Layout) : Bool × Nat := (l.inhibitImages, l.tableDepth)

theorem Layout.holding_of_base {l m : Layout} (h : l.base = m.base) : l.holding = m.holding := by
  have hholding := congrArg Layout.holding h
  exact hholding

namespace Renderer
variable {s : Scene} {visit : NodeId → Renderer → Renderer} {id : NodeId} {e : Element}
  {r q : Renderer} {g : Grid}

/-! ### Tables -/

/-- The requests made and the nodes entered. -/
def asked (r : Renderer) : List ImageRequest × List NodeId := (r.images, r.visited)

theorem freshCell_aside (cell : Option NodeId) (width : Nat) (fill : Bool) (r : Renderer) :
    ∃ cache log, (freshCell s visit cell width fill r).2 = { r with cache, log } := by
  rw [freshCell_eq]
  exact ⟨_, _, rfl⟩

theorem renderCell_aside (fill : Bool) (cell : Option NodeId) (width : Nat) (r : Renderer) :
    ∃ cache log, (renderCell s visit fill cell width r).2 = { r with cache, log } := by
  unfold renderCell
  split
  · unfold cachedCell Cache.lookup
    dsimp only
    cases r.cache.find? (cellKey s cell width fill r) with
    | some found => exact ⟨_, r.log, rfl⟩
    | none =>
      obtain ⟨cache, log, h⟩ := @freshCell_aside s visit cell width fill
        { r with cache := { r.cache with misses := r.cache.misses + 1 } }
      dsimp only
      rw [h]
      exact ⟨_, log, rfl⟩
  · exact freshCell_aside cell width fill r

theorem renderCells_aside (fill : Bool) (places : List (Option NodeId × Nat)) (r : Renderer) :
    ∃ cache log, (renderCells s visit fill places r).2 = { r with cache, log } := by
  induction places generalizing r with
  | nil => exact ⟨r.cache, r.log, rfl⟩
  | cons place places ih =>
    obtain ⟨cache, log, hcell⟩ := @renderCell_aside s visit fill place.1 place.2 r
    obtain ⟨cache', log', hcells⟩ := ih { r with cache, log }
    refine ⟨cache', log', ?_⟩
    unfold renderCells
    dsimp only
    rw [hcell, hcells]

/-- The rows of a table are rendered aside: their colors are taken back. -/
theorem renderRows_aside (fill : Bool) (widths : List Nat) (rows : List GridRow) (r : Renderer) :
    ∃ cache log, (renderRows s visit fill widths rows r).2 = { r with cache, log } := by
  induction rows generalizing r with
  | nil => exact ⟨r.cache, r.log, rfl⟩
  | cons row rows ih =>
    obtain ⟨log, hpush⟩ := pushRow_eq s row.row r
    have hpop (pushed : Bool) (cache : CellCache) (log : WarningLog) (frame : Frame) :
        popRow pushed { r with styles := if pushed then frame :: r.styles else r.styles, cache, log }
          = { r with cache, log } := by
      cases pushed <;> rfl
    unfold renderRows
    dsimp only
    generalize (pushRow s row.row r).1 = pushed at hpush ⊢
    rw [hpush]
    obtain ⟨cache, log, hcells⟩ := @renderCells_aside s visit fill (row.cells.zip widths)
      { r with styles := if pushed then (cellFrame s row.row).1 :: r.styles else r.styles, log }
    rw [hcells, hpop]
    exact ih _

theorem finalRows_aside (passes : Nat) (widths : List Nat) (r : Renderer) :
    ∃ cache log, (finalRows s visit g passes widths r).2.2 = { r with cache, log } := by
  induction passes generalizing widths r with
  | zero => exact renderRows_aside true widths g.rows r
  | succ passes ih =>
    obtain ⟨cache, log, hrows⟩ := @renderRows_aside s visit true widths g.rows r
    unfold finalRows
    dsimp only
    split
    · exact ⟨cache, log, hrows⟩
    · rw [hrows]
      exact ih _ { r with cache, log }

/-- Cells are rendered aside, whatever visiting a node does. -/
theorem negotiate_aside (s : Scene) (visit : NodeId → Renderer → Renderer) (g : Grid)
    (r : Renderer) : ∃ cache log, (negotiate s visit g r).2.2 = { r with cache, log } := by
  obtain ⟨cache, log, hused⟩ := @renderRows_aside s visit false
    (Table.prorate (g.weights s.tree) r.layout.width r.layout.indentation) g.rows r
  obtain ⟨cache', log', hnatural⟩ := @renderRows_aside s visit false
    (List.replicate g.columns naturalTrialWidth) g.rows { r with cache, log }
  unfold negotiate trial
  dsimp only
  rw [hused, hnatural]
  exact finalRows_aside _ _ { r with cache := cache', log := log' }

theorem asked_negotiate (g : Grid) (r : Renderer) :
    (negotiate s visit g r).2.2.asked = r.asked := by
  obtain ⟨cache, log, h⟩ := negotiate_aside s visit g r
  rw [h]
  rfl

theorem page_negotiate (g : Grid) (r : Renderer) : (negotiate s visit g r).2.2.page = r.page := by
  obtain ⟨cache, log, h⟩ := negotiate_aside s visit g r
  rw [h]

theorem frame_writeGrid (widths : List Nat) (rows : List (GridRow × List Cell)) (r : Renderer) :
    (writeGrid s widths rows r).layout = r.layout ∧
      (writeGrid s widths rows r).asked = r.asked := by
  obtain ⟨buffer, log, hgrid, -⟩ := writeGrid_spec s widths rows r
  rw [hgrid]
  exact ⟨rfl, rfl⟩

theorem frame_putGrid (g : Grid) (r : Renderer) :
    (putGrid s visit g r).layout = { r.layout with kind := .text } ∧
      (putGrid s visit g r).asked = r.asked := by
  have hpage := @page_negotiate s visit g r
  have hasked := @asked_negotiate s visit g r
  unfold putGrid
  generalize negotiate s visit g r = out at hpage hasked
  obtain ⟨widths, rows, q⟩ := out
  obtain ⟨hlayout, hgrid⟩ := frame_writeGrid (s := s) widths (g.rows.zip rows) q
  have hq : q.layout = r.layout := congrArg Page.layout hpage
  exact ⟨congrArg (fun l : Layout => { l with kind := FlowKind.text }) (hlayout.trans hq),
    hgrid.trans hasked⟩

/-! ### Rules -/

theorem base_insertText (s : Scene) (t : Text) (r : Renderer) :
    (insertText s t r).layout.base = r.layout.base := by
  refine (congrArg Layout.base (Page.layout_insert s.options.rules r.page t)).trans ?_
  split <;> rfl

theorem frame_image (s : Scene) (e : Element) (r : Renderer) :
    (image s e r).layout.base = r.layout.base ∧ (image s e r).visited = r.visited := by
  obtain ⟨page, images, heq, -, hlayout⟩ := image_spec (fun _ _ _ h => h) s e r
  rw [heq]
  have hbase := congrArg Layout.base hlayout
  exact ⟨hbase, rfl⟩

theorem frame_mediaLabel (s : Scene) (label : String) (e : Element) (r : Renderer) :
    (media s label e (fun r => r) r).layout.base = r.layout.base ∧
      (media s label e (fun r => r) r).asked = r.asked := by
  unfold media
  cases e.filledAttr? "src" with
  | none => exact ⟨rfl, rfl⟩
  | some source =>
    dsimp only
    rw [region_eq]
    exact ⟨base_insertText s label.toList (r.onBuffer (·.openRegion)), rfl⟩

theorem layout_openRule_table (h : e.tag.role = .table) (r : Renderer) :
    (openRule s id e r).layout = r.layout := by
  unfold openRule
  simp only [h]
  split <;> rfl

theorem layout_ruler (r : Renderer) : (ruler r).layout = { r.layout with kind := .text } := rfl

theorem layout_lineBreak (r : Renderer) :
    (lineBreak r).layout = { r.layout with kind := .text } := rfl

/-- The rule of an element puts the layout back behind what it shows. -/
theorem base_closeRule (hq : q.layout.base = (openRule s id e r).layout.base) :
    (closeRule s visit id e r.layout q).layout.base = r.layout.base := by
  have houtdent := congrArg (fun l : Layout => { l with indentation := r.layout.indentation }) hq
  unfold openRule at hq houtdent
  unfold closeRule
  cases hrole : e.tag.role with
  | image =>
    simp only [hrole] at hq
    exact hq.trans (frame_image s e r).1
  | media label =>
    simp only [hrole] at hq
    exact hq.trans (frame_mediaLabel s label e r).1
  | item =>
    simp only [hrole] at houtdent
    have hlabel : ((labelled r).indentBy (labelText r.layout.list).width).layout =
        { r.layout with
          indentation := r.layout.indentation + (labelText r.layout.list).width, kind := .text } :=
      congrArg (fun l : Layout => { l with
        indentation := l.indentation + (labelText r.layout.list).width }) (layout_labelled r)
    rw [hlabel] at houtdent
    exact houtdent
  | quote | definition =>
    simp only [hrole] at houtdent
    exact houtdent
  | link =>
    simp only [hrole] at hq
    have hopen : q.layout.base = r.layout.base := by
      rw [hq]
      split <;> rfl
    dsimp only
    split <;> exact hopen
  | table =>
    simp only [hrole] at hq
    have hopen : q.layout.base = r.layout.base := by
      rw [hq]
      split <;> rfl
    dsimp only
    rw [(frame_putGrid _ _).1]
    exact hopen
  | preformatted =>
    simp only [hrole] at hq
    exact congrArg (fun l : Layout => { l with fold := r.layout.fold }) hq
  | ruler =>
    simp only [hrole, layout_ruler] at hq
    exact hq
  | lineBreak =>
    simp only [hrole, layout_lineBreak] at hq
    exact hq
  | _ =>
    simp only [hrole] at hq
    exact hq

theorem holding_openRule (s : Scene) (id : NodeId) (e : Element) (r : Renderer) :
    (openRule s id e r).layout.holding = r.layout.holding := by
  obtain ⟨⟨_, l⟩⟩ := r
  cases l
  unfold openRule
  cases e.tag.role with
  | image => exact Layout.holding_of_base (frame_image s e _).1
  | media label => exact Layout.holding_of_base (frame_mediaLabel s label e _).1
  | item => exact (congrArg Layout.holding (layout_labelled _) :)
  | link | table =>
    dsimp only
    split <;> rfl
  | _ => rfl

theorem visited_openRule (s : Scene) (id : NodeId) (e : Element) (r : Renderer) :
    (openRule s id e r).visited = r.visited := by
  cases r
  unfold openRule
  cases e.tag.role with
  | image => exact (frame_image s e _).2
  | media label => exact congrArg Prod.snd (frame_mediaLabel s label e _).2
  | link | table =>
    dsimp only
    split <;> rfl
  | _ => rfl

theorem images_openRule (h : e.tag.role ≠ .image) (r : Renderer) :
    (openRule s id e r).images = r.images := by
  cases r
  unfold openRule
  cases hrole : e.tag.role with
  | image => exact absurd hrole h
  | media label => exact congrArg Prod.fst (frame_mediaLabel s label e _).2
  | link | table =>
    dsimp only
    split <;> rfl
  | _ => rfl

theorem asked_closeRule (l : Layout) (q : Renderer) :
    (closeRule s visit id e l q).asked = q.asked := by
  unfold closeRule
  cases e.tag.role with
  | link =>
    dsimp only
    split <;> rfl
  | table => exact (frame_putGrid _ _).2
  | _ => rfl

theorem asked_openColors (e : Element) (r : Renderer) : (openColors e r).asked = r.asked := by
  unfold openColors
  split <;> rfl

@[simp] theorem layout_closeColors (s : Scene) (e : Element) (r : Renderer) :
    (closeColors s e r).layout = r.layout := by
  unfold closeColors
  split <;> rfl

theorem asked_closeColors (s : Scene) (e : Element) (r : Renderer) :
    (closeColors s e r).asked = r.asked := by
  unfold closeColors
  split <;> rfl

theorem base_visits (h : ∀ id r, (visit id r).layout.base = r.layout.base) (ids : List NodeId)
    (r : Renderer) : (visits visit ids r).layout.base = r.layout.base := by
  induction ids generalizing r with
  | nil => rfl
  | cons id ids ih => exact (ih _).trans (h id r)

theorem base_closed_of {v : Visit} (h : ∀ id r, (v.below s id r).layout.base = r.layout.base)
    (c : Content) : (v.closed s c).layout.base = v.start.layout.base := by
  have hfilled := base_visits h (shown s v.id c) (v.opened s c)
  cases c with
  | element e =>
    let q := openColors e
      { v.start with visited := v.id :: v.start.visited, path := v.id :: v.start.path }
    have hopen : q.layout = v.start.layout := layout_openColors ..
    have hrule : (closeRule s (v.below s) v.id e q.layout
        (visits (v.below s) (shownBy s v.id e) (openRule s v.id e q))).layout.base =
          q.layout.base := base_closeRule hfilled
    rw [hopen] at hrule
    exact hrule
  | text t => exact hfilled.trans (base_insertText s t _)
  | _ => exact hfilled

theorem base_node (s : Scene) (levels : Nat) (id : NodeId) (r : Renderer) :
    (node s levels id r).layout.base = r.layout.base := by
  induction levels generalizing id r with
  | zero => rfl
  | succ levels ih =>
    let v : Visit := ⟨levels + 1, id, r⟩
    change (v.result s).layout.base = r.layout.base
    rcases v.enters_or s with ⟨c, h⟩ | ⟨log, h⟩
    · obtain ⟨path, heq⟩ := Visit.result_eq h
      have hclosed : (v.closed s c).layout.base = r.layout.base := @base_closed_of s v ih c
      have hvisits := base_visits ih (deferred s id c (v.closed s c)) (v.closed s c)
      rw [heq]
      cases c with
      | element e =>
        exact (congrArg Layout.base (layout_closeColors s e _)).trans (hvisits.trans hclosed)
      | _ => exact hvisits.trans hclosed
    · rw [h]
      rfl

end Renderer

namespace Visit
open Renderer
variable {s : Scene} {v w : Visit} {c : Content}

theorem base_filled (s : Scene) (v : Visit) (c : Content) :
    (v.filled s c).layout.base = (v.opened s c).layout.base :=
  base_visits (base_node s _) _ _

theorem base_closed (s : Scene) (v : Visit) (c : Content) :
    (v.closed s c).layout.base = v.start.layout.base :=
  base_closed_of (base_node s _) c

theorem holding_opened (s : Scene) (v : Visit) (c : Content) :
    (v.opened s c).layout.holding = v.start.layout.holding := by
  cases c with
  | element e =>
    exact (holding_openRule s v.id e _).trans (congrArg Layout.holding (layout_openColors e _))
  | text t => exact Layout.holding_of_base (base_insertText s t _)
  | _ => rfl

theorem visited_opened (s : Scene) (v : Visit) (c : Content) :
    (v.opened s c).visited = v.id :: v.start.visited := by
  cases c with
  | element e =>
    exact (visited_openRule s v.id e _).trans (congrArg Prod.snd (asked_openColors e _))
  | _ => rfl

theorem asked_closed (s : Scene) (v : Visit) (c : Content) :
    (v.closed s c).asked = (v.filled s c).asked := by
  cases c with
  | element e => exact asked_closeRule _ _
  | _ => rfl

theorem asked_result (h : v.Enters s c) : (v.result s).asked =
    (visits (v.below s) (deferred s v.id c (v.closed s c)) (v.closed s c)).asked := by
  obtain ⟨path, heq⟩ := result_eq h
  rw [heq]
  cases c with
  | element e => exact asked_closeColors s e _
  | _ => rfl

end Visit
end MarkupText
