import MarkupText.Proofs.Render.Visit

/-!
# The cells that a render keeps

A table renders its cells several times, each on a page of its own with visits of its own, from the
cells kept so far. `Visit.Meets` relates a visit to all that are made in the course of it, on its page
and on those of the cells below. What they find kept is `Renderer.Kept`: it was kept by looking cells
up, by rendering them and by visiting nodes (`Visit.Meets.kept`).
-/

namespace MarkupText

namespace Renderer
variable {s : Scene} {r r' : Renderer} {c : CellCache} {g : Grid} {levels n : Nat} {fill : Bool}
  {widths : List Nat}

/-- What a render of the scene may have kept at some time: cells are kept by looking one up, by
rendering one and by visiting a node. -/
inductive Kept (s : Scene) : CellCache → Prop
  | clear (c : CellCache) : Kept s c.clear
  | lookup {c : CellCache} (h : Kept s c) (key : CellKey) : Kept s (c.lookup key).2
  | cell {r : Renderer} (h : Kept s r.cache) (levels : Nat) (fill : Bool) (cell : Option NodeId)
      (width : Nat) : Kept s (renderCell s (node s levels) fill cell width r).2.cache
  | node {r : Renderer} (h : Kept s r.cache) (levels : Nat) (id : NodeId) :
      Kept s (node s levels id r).cache

/-! ### Tables -/

/-- The rows of a table are rendered at some widths from the state `q`: on trial with the suggested
widths and with all the room they could want, and then for good after each widening. -/
inductive DrawsRows (s : Scene) (visit : NodeId → Renderer → Renderer) (g : Grid) (r : Renderer) :
    Bool → List Nat → Renderer → Prop
  | suggested : DrawsRows s visit g r false
      (Table.prorate (g.weights s.tree) r.layout.width r.layout.indentation) r
  | natural : DrawsRows s visit g r false (List.replicate g.columns naturalTrialWidth)
      (trial s visit g (Table.prorate (g.weights s.tree) r.layout.width r.layout.indentation) r).2
  | final {n : Nat} (hn : n ≤ rounds s visit g maxWidenings (proposed s visit g r)) :
      DrawsRows s visit g r true (widened s visit g n (proposed s visit g r)).1
        (widened s visit g n (proposed s visit g r)).2

/-- A cell is rendered at some width from the state `q`, behind the rows above and the cells on its
left. -/
inductive DrawsCell (s : Scene) (visit : NodeId → Renderer → Renderer) (g : Grid) (r : Renderer) :
    Bool → Option NodeId → Nat → Renderer → Prop
  | mk {fill : Bool} {widths : List Nat} {q : Renderer} (h : DrawsRows s visit g r fill widths q)
      {above below : List GridRow} {row : GridRow} (hrows : g.rows = above ++ row :: below)
      {left right : List (Option NodeId × Nat)} {cell : Option NodeId} {width : Nat}
      (hcells : row.cells.zip widths = left ++ (cell, width) :: right) :
      DrawsCell s visit g r fill cell width (renderCells s visit fill left
        (pushRow s row.row (renderRows s visit fill widths above q).2).2).2

/-- A cell is rendered anew from the state `q'`, if it is not found among those that are kept. -/
inductive RendersAnew (s : Scene) (cell : Option NodeId) (width : Nat) (fill : Bool) (q : Renderer) :
    Renderer → Prop
  | missed (hreuse : s.reuseCells = true)
      (hnone : q.cache.find? (cellKey s cell width fill q) = none) :
      RendersAnew s cell width fill q
        { q with cache := (q.cache.lookup (cellKey s cell width fill q)).2 }
  | always (hreuse : s.reuseCells = false) : RendersAnew s cell width fill q q

namespace Kept

theorem renderCells (h : Kept s r.cache) (places : List (Option NodeId × Nat)) :
    Kept s (renderCells s (Renderer.node s levels) fill places r).2.cache := by
  induction places generalizing r with
  | nil => exact h
  | cons place places ih => exact ih (h.cell levels fill place.1 place.2)

theorem renderRows (h : Kept s r.cache) (widths : List Nat) (rows : List GridRow) :
    Kept s (renderRows s (Renderer.node s levels) fill widths rows r).2.cache := by
  induction rows generalizing r with
  | nil => exact h
  | cons row rows ih =>
    have hrow : Kept s (pushRow s row.row r).2.cache := by rwa [cache_pushRow]
    refine ih ?_
    rw [cache_popRow]
    exact hrow.renderCells _

theorem widened {p : List Nat × Renderer} (h : Kept s p.2.cache) (g : Grid) (n : Nat) :
    Kept s (widened s (Renderer.node s levels) g n p).2.cache := by
  induction n generalizing p with
  | zero => exact h
  | succ n ih => exact ih (h.renderRows p.1 g.rows)

theorem proposed (h : Kept s r.cache) (g : Grid) :
    Kept s (proposed s (Renderer.node s levels) g r).2.cache :=
  (h.renderRows _ g.rows).renderRows _ g.rows

theorem negotiate (h : Kept s r.cache) (g : Grid) :
    Kept s (negotiate s (Renderer.node s levels) g r).2.2.cache := by
  rw [negotiate_eq, finalRows_eq]
  exact ((h.proposed g).widened g _).renderRows _ g.rows

theorem drawsRows (h : Kept s r.cache) {q : Renderer}
    (hq : DrawsRows s (Renderer.node s levels) g r fill widths q) : Kept s q.cache := by
  cases hq with
  | suggested => exact h
  | natural => exact h.renderRows _ g.rows
  | final => exact (h.proposed g).widened g _

theorem drawsCell (h : Kept s r.cache) {cell : Option NodeId} {width : Nat} {q : Renderer}
    (hq : DrawsCell s (Renderer.node s levels) g r fill cell width q) : Kept s q.cache := by
  obtain ⟨hrows, -, -⟩ := hq
  refine Kept.renderCells ?_ _
  rw [cache_pushRow]
  exact (h.drawsRows hrows).renderRows _ _

theorem rendersAnew (h : Kept s r.cache) {cell : Option NodeId} {width : Nat}
    (hr : RendersAnew s cell width fill r r') : Kept s r'.cache := by
  cases hr with
  | missed => exact h.lookup _
  | always => exact h

end Kept

theorem upkeep_kept (s : Scene) : Upkeep s fun r => Kept s r.cache where
  aside h _ _ hcache := hcache ▸ h
  layout _ _ _ _ h := h
  refold _ h := h
  ensureNewline h := h
  ensureParagraph h := h
  openRegion h := h
  endRegion _ _ h := h
  endColors _ h := h
  insertText _ h := h
  lineBreak h := h
  ruler {r} h := by
    have hcache (f : Buffer → Buffer) (g : Layout → Layout) :
        ((r.onBuffer f).onLayout g).cache = r.cache := rfl
    rwa [ruler_eq, hcache]
  labelled h := h
  image e h := by
    obtain ⟨page, images, heq, -⟩ := image_spec (fun _ _ _ => RangeRule.within_of_tight) s e _
    rw [heq]
    exact h
  grid {r} levels g h := by
    have hline : Kept s (r.onBuffer (·.ensureNewline)).cache := h
    have hgrid : Kept s (Renderer.negotiate s (Renderer.node s levels) g
        (r.onBuffer (·.ensureNewline))).2.2.cache := hline.negotiate g
    unfold putGrid
    generalize Renderer.negotiate s _ g _ = out at hgrid
    obtain ⟨widths, rows, q⟩ := out
    exact (congrArg (Kept s) (cache_writeGrid s widths (g.rows.zip rows) q)).mpr hgrid

end Renderer

namespace Visit
open Renderer
variable {s : Scene} {v w : Visit} {e : Element}

/-- The visit `w` is that of a cell which is rendered for the grid of the table that `v` enters. -/
inductive CallsCell (s : Scene) (v : Visit) : Visit → Prop
  | mk {e : Element} (h : v.Enters s (.element e)) (htag : e.tag = .table) {fill : Bool}
      {cell : NodeId} {width : Nat} {q q' : Renderer}
      (hq : DrawsCell s (v.below s) (Grid.collect s.tree v.id).1
        ((v.filled s (.element e)).onBuffer (·.ensureNewline)) fill (some cell) width q)
      (hanew : RendersAnew s (some cell) width fill q q') :
      CallsCell s v ⟨v.levels - 1, cell, cellStart s (some cell) width q'⟩

/-- The visit `w` is `v`, or is made in the course of it on its page or in a cell. -/
def Meets (s : Scene) : Visit → Visit → Prop :=
  Relation.ReflTransGen fun v w => Calls s v w ∨ CallsCell s v w

/-- A cell is rendered from what was kept so far. -/
theorem CallsCell.exists_start (h : CallsCell s v w) (hv : Kept s v.start.cache) :
    ∃ cell width r, Kept s r.cache ∧
      w = ⟨v.levels - 1, cell, cellStart s (some cell) width r⟩ := by
  obtain @⟨e, -, -, _, cell, width, _, r, hq, hanew⟩ := h
  have hline : Kept s ((v.filled s (.element e)).onBuffer (·.ensureNewline)).cache :=
    keep_filled (upkeep_kept s) hv (.element e)
  exact ⟨cell, width, r, (hline.drawsCell hq).rendersAnew hanew, rfl⟩

theorem CallsCell.kept (h : CallsCell s v w) (hv : Kept s v.start.cache) :
    Kept s w.start.cache := by
  obtain ⟨cell, width, r, hr, rfl⟩ := h.exists_start hv
  exact hr

theorem Meets.kept (h : Meets s v w) (hv : Kept s v.start.cache) : Kept s w.start.cache := by
  induction h with
  | refl => exact hv
  | tail _ h ih =>
    rcases h with h | h
    · exact h.keep (upkeep_kept s) ih
    · exact h.kept ih

end Visit
end MarkupText
