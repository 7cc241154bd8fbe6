import MarkupText.Proofs.Render.Pace
import MarkupText.Proofs.Table.Steps

/-!
# Tables with cells that are reused

If visits below some level keep two descents at their pace (`Renderer.VisitsKeep`), so do tables
(`Renderer.keeps_table`): a cell that is rendered stands for its key (`Renderer.stands_freshCell`),
so a cell that was kept is what a fresh render gives.
-/

namespace MarkupText.Renderer

variable {s : Scene} {p : Pace s} {levels₁ levels₂ : Nat} {a b : NodeId} {r r' r₁ r₂ : Renderer}

/-- Visits with `levels` left keep any descents at their pace. -/
def VisitsKeep (s : Scene) (levels : Nat) : Prop :=
  ∀ (p : Pace s) (levels₂ : Nat) (a b : NodeId), p.twins.rel a b →
    s.tree.Open levels p.path₁ a → s.tree.Open levels₂ p.path₂ b →
    (s.tree.signature a).length ≤ p.weight →
    Keeps p.Holds (node s levels a) (node s.fresh levels₂ b)

theorem Overt.popRow (pushed : Bool) : Overt (popRow pushed) := by
  cases pushed <;> exact ⟨fun _ => rfl, fun _ => rfl⟩

/-! ### Cells -/

/-- The pace of two cells with equal signatures. -/
def Pace.ofCells (ht : s.tree.SingleParent) (hs : s.tree.Sound) (r r' : Renderer)
    (ha : s.tree.Open levels₁ r.path a) (hb : s.tree.Open levels₂ r'.path b)
    (hab : s.tree.signature a = s.tree.signature b) : Pace s where
  twins := .ofSignature ht hs ha.fits_maxDepth hb.fits_maxDepth hab
  depth₁ := r.layout.tableDepth + 1
  depth₂ := r'.layout.tableDepth + 1
  path₁ := r.path
  path₂ := r'.path
  cache := r.cache
  weight := (s.tree.signature a).length
  depth_iff := by simp
  same := fun h => by cases h

/-- Two cells start in step: no node at or below them is on the way. -/
theorem inStep_cellStart (ht : s.tree.SingleParent) (hs : s.tree.Sound)
    (ha : s.tree.Open levels₁ r.path a) (hb : s.tree.Open levels₂ r'.path b)
    (hab : s.tree.signature a = s.tree.signature b) (hsound : r.cache.Sound (Stands s))
    (hfold : r.layout.fold = r'.layout.fold) (hstyles : r.styles = r'.styles) (width : Nat) :
    InStep (Pace.ofCells ht hs r r' ha hb hab).Holds (cellStart s (some a) width r)
      (cellStart s.fresh (some b) width r') where
  bare := by
    unfold cellStart bare Page.atDepth Page.onLayout Layout.forCell
    dsimp only
    rw [hfold, hstyles]
  aside :=
    { depth₁ := rfl
      depth₂ := rfl
      path₁ := rfl
      path₂ := rfl
      visited := fun {x y} hxy => by
        have hx : x ∉ r.path := fun hx => ha.clear x hx hxy.below_left
        have hy : y ∉ r'.path := fun hy => hb.clear y hy hxy.symm.below_left
        exact ⟨fun h => absurd h hx, fun h => absurd h hy⟩
      sound := hsound
      grown := .refl _ _ }

theorem eq_of_cellKey {c c' : Option NodeId} {width width' : Nat} {fill fill' : Bool}
    (h : cellKey s c' width' fill' r' = cellKey s c width fill r) :
    width' = width ∧ fill' = fill ∧ r.layout.fold = r'.layout.fold ∧ r.styles = r'.styles ∧
      c.map s.tree.signature = c'.map s.tree.signature := by
  obtain ⟨hwidth, hfill, hverbatim, hcontent, hstyles⟩ := CellKey.mk.inj h
  refine ⟨hwidth, hfill, ?_, hstyles.symm, hcontent.symm⟩
  cases hfold : r.layout.fold <;> cases hfold' : r'.layout.fold <;> simp_all

/-- A cell that is rendered is what a fresh render gives wherever a cell has its key. -/
theorem stands_freshCell (ht : s.tree.SingleParent) (hs : s.tree.Sound)
    (ih : VisitsKeep s levels₁) {c : Option NodeId}
    (hc : ∀ id, c = some id → s.tree.Open levels₁ r.path id) (hsound : r.cache.Sound (Stands s))
    (width : Nat) (fill : Bool) :
    Stands s (cellKey s c width fill r) (freshCell s (node s levels₁) c width fill r).1 := by
  intro levels₂ c' width' fill' r' hc' hkey
  obtain ⟨rfl, rfl, hfold, hstyles, hcontent⟩ := eq_of_cellKey hkey
  rw [freshCell_eq, freshCell_eq]
  dsimp only
  rw [hstyles]
  cases c with
  | none =>
    obtain rfl := Option.map_eq_none_iff.1 hcontent.symm
    rfl
  | some a =>
    obtain ⟨b, rfl, hab⟩ := Option.map_eq_some_iff.1 hcontent.symm
    have ha := hc a rfl
    have hb := hc' b rfl
    have hstep := ih (.ofCells ht hs r r' ha hb hab.symm) levels₂ a b .start ha hb (Nat.le_refl _)
      (inStep_cellStart ht hs ha hb hab.symm hsound hfold hstyles width')
    have hframe : cellFrame s.fresh (some b) = cellFrame s (some a) := by
      have := Tree.element?_eq hs (Tree.signature_inj ht hs hb.fits_maxDepth ha.fits_maxDepth hab).1
      unfold cellFrame
      rw [Option.bind_some, Option.bind_some, ← this]
      rfl
    unfold cellOf visitCell
    rw [hframe, hstep.buffer]

/-- What rendering a cell keeps: cells that stand for their keys, all of them inside the cell. -/
theorem cache_freshCell (ht : s.tree.SingleParent) (hs : s.tree.Sound)
    (ih : VisitsKeep s levels₁) {c : Option NodeId}
    (hc : ∀ id, c = some id → s.tree.Open levels₁ r.path id) (hsound : r.cache.Sound (Stands s))
    (width : Nat) (fill : Bool) :
    let cache := (freshCell s (node s levels₁) c width fill r).2.cache
    cache.Sound (Stands s) ∧
      Cache.Grown (fun k => k.weight < (cellKey s c width fill r).weight) r.cache cache := by
  rw [freshCell_eq]
  cases c with
  | none => exact ⟨hsound, .refl _ _⟩
  | some a =>
    have ha := hc a rfl
    have hstep := ih (.ofCells ht hs r r ha ha rfl) levels₁ a a .start ha ha (Nat.le_refl _)
      (inStep_cellStart ht hs ha ha rfl hsound rfl rfl width)
    exact ⟨hstep.aside.sound, hstep.aside.grown⟩

section Cached
variable {visit : NodeId → Renderer → Renderer} {c : Option NodeId} {width : Nat} {fill : Bool}

theorem cachedCell_of_find?_eq_some {found : Cell}
    (h : r.cache.find? (cellKey s c width fill r) = some found) :
    cachedCell s visit c width fill r =
      (found, { r with cache := { r.cache with hits := r.cache.hits + 1 } }) := by
  simp only [cachedCell, Cache.lookup, h]

theorem cachedCell_of_find?_eq_none (h : r.cache.find? (cellKey s c width fill r) = none) :
    cachedCell s visit c width fill r =
      let out := freshCell s visit c width fill
        { r with cache := { r.cache with misses := r.cache.misses + 1 } }
      (out.1, { out.2 with cache := out.2.cache.store (cellKey s c width fill r) out.1 }) := by
  simp only [cachedCell, Cache.lookup, h]

end Cached

/-- What rendering a cell gives and keeps; of the rest, it changes the reports. -/
theorem freshCell_spec (ht : s.tree.SingleParent) (hs : s.tree.Sound)
    (ih : VisitsKeep s levels₁) {c : Option NodeId}
    (hc : ∀ id, c = some id → s.tree.Open levels₁ r.path id) (hsound : r.cache.Sound (Stands s))
    (width : Nat) (fill : Bool) :
    ∃ cell cache log, freshCell s (node s levels₁) c width fill r = (cell, { r with cache, log }) ∧
      Stands s (cellKey s c width fill r) cell ∧ cache.Sound (Stands s) ∧
      Cache.Grown (fun k => k.weight < (cellKey s c width fill r).weight) r.cache cache := by
  let out := freshCell s (node s levels₁) c width fill r
  refine ⟨out.1, out.2.cache, out.2.log, ?_, stands_freshCell ht hs ih hc hsound width fill,
    cache_freshCell ht hs ih hc hsound width fill⟩
  unfold out
  rw [freshCell_eq]

/-- A cell that is reused is what a fresh render gives; one that is not found is kept. -/
theorem cachedCell_spec (ht : s.tree.SingleParent) (hs : s.tree.Sound)
    (ih : VisitsKeep s levels₁) {c : Option NodeId}
    (hc : ∀ id, c = some id → s.tree.Open levels₁ r.path id) (hsound : r.cache.Sound (Stands s))
    (width : Nat) (fill : Bool) :
    ∃ cell cache log, cachedCell s (node s levels₁) c width fill r = (cell, { r with cache, log }) ∧
      Stands s (cellKey s c width fill r) cell ∧ cache.Sound (Stands s) ∧
      Cache.Grown (fun k => k.weight ≤ (cellKey s c width fill r).weight) r.cache cache := by
  cases hfind : r.cache.find? (cellKey s c width fill r) with
  | some found =>
    exact ⟨found, _, r.log, cachedCell_of_find?_eq_some hfind, hsound.find? hfind,
      ⟨hsound.nodup, hsound.stands⟩, ⟨rfl, fun _ hk => .inl hk⟩⟩
  | none =>
    obtain ⟨cell, cache, log, hcell, hstands, hinner, hgrown⟩ := freshCell_spec
      (r := { r with cache := { r.cache with misses := r.cache.misses + 1 } })
      ht hs ih hc ⟨hsound.nodup, hsound.stands⟩ width fill
    -- The cells inside have smaller signatures, so none of them was kept under this key.
    have hnew : cellKey s c width fill r ∉ cache.keys := by
      intro hmem
      rcases hgrown.light _ hmem with hmem | hlt
      · exact Cache.not_mem_keys hfind hmem
      · exact Nat.lt_irrefl _ hlt
    rw [cachedCell_of_find?_eq_none hfind, hcell]
    exact ⟨cell, _, log, rfl, hstands, hinner.store hnew hstands,
      Cache.Grown.store (hgrown.mono fun _ => Nat.le_of_lt) hnew (Nat.le_refl _)⟩

/-- Reusing a cell and rendering its twin afresh give the same. -/
theorem yields_renderCell (ht : s.tree.SingleParent) (hs : s.tree.Sound)
    (ih : VisitsKeep s levels₁) (hreuse : s.reuseCells = true) (hw : 0 < p.weight) (fill : Bool)
    {c d : Option NodeId} (hcd : Option.Rel (p.Pairs levels₁ levels₂) c d) (width : Nat) :
    Yields p.Holds (renderCell s (node s levels₁) fill c width)
      (renderCell s.fresh (node s.fresh levels₂) fill d width) := by
  intro r₁ r₂ h
  have hpath₁ : r₁.path = p.path₁ := h.aside.path₁
  have hpath₂ : r₂.path = p.path₂ := h.aside.path₂
  have hc : ∀ id, c = some id → s.tree.Open levels₁ r₁.path id := by
    rintro id rfl
    cases hcd with
    | some hab => exact hpath₁ ▸ hab.open₁
  have hd : ∀ id, d = some id → s.tree.Open levels₂ r₂.path id := by
    rintro id rfl
    cases hcd with
    | some hab => exact hpath₂ ▸ hab.open₂
  have hkey : cellKey s d width fill r₂ = cellKey s c width fill r₁ := by
    have hcontent : d.map s.tree.signature = c.map s.tree.signature := by
      cases hcd with
      | none => rfl
      | some hab => exact congrArg some (hab.signature_eq ht).symm
    unfold cellKey
    rw [h.layout (·.fold) fun _ => rfl, h.styles, hcontent]
  have hlight : (cellKey s c width fill r₁).weight < p.weight := by
    cases hcd with
    | none => exact hw
    | some hab => exact hab.light
  obtain ⟨cell, cache, log, hcell, hstands, hsound, hgrown⟩ :=
    cachedCell_spec ht hs ih hc h.aside.sound width fill
  have hfirst : renderCell s (node s levels₁) fill c width r₁ = (cell, { r₁ with cache, log }) :=
    (if_pos hreuse).trans hcell
  have hsecond : renderCell s.fresh (node s.fresh levels₂) fill d width r₂ =
      freshCell s.fresh (node s.fresh levels₂) d width fill r₂ := if_neg Bool.false_ne_true
  rw [hfirst, hsecond]
  refine ⟨(hstands levels₂ d width fill r₂ hd hkey).symm, ?_⟩
  rw [freshCell_eq]
  exact ⟨h.bare, { h.aside with
    sound := hsound
    grown := h.aside.grown.trans (hgrown.mono fun k hk => Nat.lt_of_le_of_lt hk hlight) }⟩

/-! ### Rows -/

section Rows
variable (ht : s.tree.SingleParent) (hs : s.tree.Sound) (ih : VisitsKeep s levels₁)
  (hreuse : s.reuseCells = true) (hw : 0 < p.weight) {g g' : Grid}
include ht hs ih hreuse hw

theorem yields_renderCells (fill : Bool) {cs ds : List (Option NodeId)}
    (h : List.Forall₂ (Option.Rel (p.Pairs levels₁ levels₂)) cs ds) (widths : List Nat) :
    Yields p.Holds (renderCells s (node s levels₁) fill (cs.zip widths))
      (renderCells s.fresh (node s.fresh levels₂) fill (ds.zip widths)) := by
  induction h generalizing widths with
  | nil => exact fun _ _ hr => ⟨rfl, hr⟩
  | cons hcd _ ihcells =>
    cases widths with
    | nil => exact fun _ _ hr => ⟨rfl, hr⟩
    | cons width widths =>
      intro r₁ r₂ hr
      obtain ⟨hcell, hr⟩ := yields_renderCell ht hs ih hreuse hw fill hcd width hr
      obtain ⟨hcells, hr⟩ := ihcells widths hr
      exact ⟨congrArg₂ List.cons hcell hcells, hr⟩

omit ht ih hreuse hw in
theorem yields_pushRow {row row' : Option NodeId}
    (h : Option.Rel (p.Pairs levels₁ levels₂) row row') :
    Yields p.Holds (pushRow s row) (pushRow s.fresh row') := by
  intro r₁ r₂ hr
  have helement : row'.bind s.fresh.tree.element? = row.bind s.tree.element? := by
    cases h with
    | none => rfl
    | some hab => exact (Tree.element?_eq hs (p.twins.item hab.twins)).symm
  unfold pushRow
  rw [helement]
  cases row.bind s.tree.element? with
  | none => exact ⟨rfl, hr⟩
  | some e =>
    dsimp only
    split
    · exact ⟨rfl, hr.overt (.warn _)⟩
    · refine ⟨rfl, hr.overt (f := fun r => { r.warn e.frame.2 with
        styles := e.frame.1 :: r.styles }) ⟨fun _ => rfl, fun _ => rfl⟩⟩

theorem yields_renderRows (fill : Bool) (widths : List Nat) {rows rows' : List GridRow}
    (h : List.Forall₂ (Grid.RowAlike (p.Pairs levels₁ levels₂)) rows rows') :
    Yields p.Holds (renderRows s (node s levels₁) fill widths rows)
      (renderRows s.fresh (node s.fresh levels₂) fill widths rows') := by
  induction h with
  | nil => exact fun _ _ hr => ⟨rfl, hr⟩
  | @cons row row' _ _ hrow _ ihrows =>
    intro r₁ r₂ hr
    obtain ⟨hpushed, hr⟩ := yields_pushRow hs hrow.row hr
    obtain ⟨hcells, hr⟩ := yields_renderCells ht hs ih hreuse hw fill hrow.cells widths hr
    have hpop := hr.overt (.popRow (pushRow s row.row r₁).1)
    nth_rewrite 2 [hpushed] at hpop
    obtain ⟨hrest, hr⟩ := ihrows hpop
    exact ⟨congrArg₂ List.cons hcells hrest, hr⟩

theorem yields_trial (h : Grid.Alike (p.Pairs levels₁ levels₂) g g') (widths : List Nat) :
    Yields p.Holds (trial s (node s levels₁) g widths)
      (trial s.fresh (node s.fresh levels₂) g' widths) := by
  intro r₁ r₂ hr
  obtain ⟨hrows, hr⟩ := yields_renderRows ht hs ih hreuse hw false widths h.rows hr
  exact ⟨congrArg₂ extents h.columns hrows, hr⟩

theorem yields_finalRows (h : Grid.Alike (p.Pairs levels₁ levels₂) g g') (passes : Nat)
    (widths : List Nat) (hr : InStep p.Holds r₁ r₂) :
    let out₁ := finalRows s (node s levels₁) g passes widths r₁
    let out₂ := finalRows s.fresh (node s.fresh levels₂) g' passes widths r₂
    out₁.1 = out₂.1 ∧ out₁.2.1 = out₂.2.1 ∧ InStep p.Holds out₁.2.2 out₂.2.2 := by
  induction passes generalizing widths r₁ r₂ with
  | zero =>
    obtain ⟨hrows, hr⟩ := yields_renderRows ht hs ih hreuse hw true widths h.rows hr
    exact ⟨rfl, hrows, hr⟩
  | succ passes ihpasses =>
    obtain ⟨hrows, hr⟩ := yields_renderRows ht hs ih hreuse hw true widths h.rows hr
    unfold finalRows
    dsimp only
    rw [hrows, h.columns]
    split
    · exact ⟨rfl, rfl, hr⟩
    · exact ihpasses _ hr

theorem yields_negotiate (h : Grid.Alike (p.Pairs levels₁ levels₂) g g')
    (hr : InStep p.Holds r₁ r₂) :
    let out₁ := negotiate s (node s levels₁) g r₁
    let out₂ := negotiate s.fresh (node s.fresh levels₂) g' r₂
    out₁.1 = out₂.1 ∧ out₁.2.1 = out₂.2.1 ∧ InStep p.Holds out₁.2.2 out₂.2.2 := by
  have hsuggested : Table.prorate (g.weights s.tree) r₁.layout.width r₁.layout.indentation =
      Table.prorate (g'.weights s.fresh.tree) r₂.layout.width r₂.layout.indentation := by
    have hwidth : r₁.layout.width = r₂.layout.width := hr.layout (·.width) fun _ => rfl
    have hindent : r₁.layout.indentation = r₂.layout.indentation :=
      hr.layout (·.indentation) fun _ => rfl
    rw [hwidth, hindent, h.weights_eq (p.descending levels₁ levels₂ ht hs)]
    rfl
  unfold negotiate
  dsimp only
  rw [hsuggested, h.columns]
  generalize Table.prorate _ _ _ = suggested
  obtain ⟨hused, hr⟩ := yields_trial ht hs ih hreuse hw h suggested hr
  obtain ⟨hnatural, hr⟩ := yields_trial ht hs ih hreuse hw h
    (List.replicate g'.columns naturalTrialWidth) hr
  rw [hused, hnatural]
  exact yields_finalRows ht hs ih hreuse hw h _ _ hr

end Rows

/-! ### The grid -/

section Grids
variable (hs : s.tree.Sound)
include hs

theorem keeps_putRow (indentation : Nat) (widths : List Nat) {row row' : GridRow}
    (hrow : Option.Rel (p.Pairs levels₁ levels₂) row.row row'.row) (cells : List Cell) :
    Keeps p.Holds (fun r => putRow s indentation widths r (row, cells))
      (fun r => putRow s.fresh indentation widths r (row', cells)) := by
  intro r₁ r₂ hr
  obtain ⟨hpushed, hr⟩ := yields_pushRow hs hrow (hr.overt (.onBuffer (·.push
    (gridRuler indentation widths ++ ['\n']))))
  have hwritten := hr.overt (.onBuffer (writeRow indentation widths cells))
  unfold putRow
  dsimp only
  rw [← hpushed]
  split
  · have hcolored := hwritten.overt (.popRow (pushRow s row.row
      (r₁.onBuffer (·.push (gridRuler indentation widths ++ ['\n'])))).1)
    rw [hr.buffer, hwritten.styles]
    exact hcolored.overt (.onBuffer _)
  · exact hwritten

theorem keeps_writeGrid (widths : List Nat) {rows rows' : List GridRow}
    (h : List.Forall₂ (Grid.RowAlike (p.Pairs levels₁ levels₂)) rows rows')
    (cells : List (List Cell)) :
    Keeps p.Holds (writeGrid s widths (rows.zip cells))
      (writeGrid s.fresh widths (rows'.zip cells)) := by
  intro r₁ r₂ hr
  have hindent : r₁.layout.indentation = r₂.layout.indentation :=
    hr.layout (·.indentation) fun _ => rfl
  rw [writeGrid_eq, writeGrid_eq, hindent]
  refine InStep.overt ?_ (.onBuffer _)
  generalize r₂.layout.indentation = indentation
  clear hindent
  induction h generalizing cells r₁ r₂ with
  | nil => exact hr
  | cons hrow _ ihrows =>
    cases cells with
    | nil => exact hr
    | cons cs cells =>
      exact ihrows cells (keeps_putRow hs indentation widths hrow.row cs hr)

end Grids

/-! ### Tables -/

theorem exists_of_mem_deferredImages {g : Grid} {x : NodeId} (hx : x ∈ deferredImages s g) :
    ∃ c ∈ g.cellNodes, s.tree.Below c x := by
  obtain ⟨c, hc, hx⟩ := List.mem_flatMap.1 (List.mem_eraseDups.1 (List.mem_filter.1 hx).1)
  exact ⟨c, hc, Tree.below_of_mem_descendants hx⟩

section Tables
variable (ht : s.tree.SingleParent) (hs : s.tree.Sound) (ih : VisitsKeep s levels₁)
  (hreuse : s.reuseCells = true) (hw : 0 < p.weight) {g g' : Grid}

include ih in
theorem keeps_visits {as bs : List NodeId}
    (h : List.Forall₂ (p.Pairs levels₁ levels₂) as bs) :
    Keeps p.Holds (fun r => as.foldl (fun r id => node s levels₁ id r) r)
      (fun r => bs.foldl (fun r id => node s.fresh levels₂ id r) r) :=
  .foldl (h.imp fun a b hab =>
    ih p levels₂ a b hab.twins hab.open₁ hab.open₂ (Nat.le_of_lt hab.light))

include ht hs ih in
theorem keeps_putCaption (h : Option.Rel (p.Pairs levels₁ levels₂) g.caption g'.caption) :
    Keeps p.Holds (putCaption s (node s levels₁) g)
      (putCaption s.fresh (node s.fresh levels₂) g') := by
  intro r₁ r₂ hr
  unfold putCaption
  refine InStep.overt ?_ (.onBuffer _)
  generalize g.caption = c at h ⊢
  generalize g'.caption = d at h ⊢
  cases h with
  | none => exact hr
  | some hcd =>
    have hchildren := (p.descending levels₁ levels₂ ht hs).children hcd
    exact keeps_visits ih hchildren (hr.overt (.onBuffer _))

include ht hs ih hreuse hw

theorem keeps_putGrid (h : Grid.Alike (p.Pairs levels₁ levels₂) g g') :
    Keeps p.Holds (putGrid s (node s levels₁) g) (putGrid s.fresh (node s.fresh levels₂) g') := by
  intro r₁ r₂ hr
  obtain ⟨hwidths, hrows, hr⟩ := yields_negotiate ht hs ih hreuse hw h hr
  unfold putGrid
  dsimp only
  rw [← hwidths, ← hrows]
  exact (keeps_writeGrid hs _ h.rows _ hr).overt (.onLayout fun _ _ => rfl)

/-- A table with reused cells and its twin keep in step. -/
theorem keeps_table (hab : p.twins.rel a b)
    (hchildren : List.Forall₂ (p.Pairs levels₁ levels₂) (s.tree.children a) (s.tree.children b)) :
    Keeps p.Holds (table s (node s levels₁) a) (table s.fresh (node s.fresh levels₂) b) := by
  intro r₁ r₂ hr
  have halike := Grid.alike_collect (p.descending levels₁ levels₂ ht hs) hchildren
  have hwarned : InStep p.Holds (r₁.warn (Grid.collect s.tree a).2)
      (r₂.warn (Grid.collect s.tree b).2) := ⟨hr.bare, hr.aside⟩
  have hcaption := keeps_putCaption ht hs ih halike.caption hwarned
  have hgrid := keeps_putGrid ht hs ih hreuse hw halike hcaption
  rw [table_eq, table_eq, show s.fresh.tree = s.tree from rfl]
  dsimp only
  generalize putGrid s _ _ _ = q₁ at hgrid ⊢
  generalize putGrid s.fresh _ _ _ = q₂ at hgrid ⊢
  have hdepth₁ : q₁.layout.tableDepth = p.depth₁ := hgrid.aside.depth₁
  have hdepth₂ : q₂.layout.tableDepth = p.depth₂ := hgrid.aside.depth₂
  by_cases htop : p.depth₁ = 0
  · have hsame := p.same htop
    obtain rfl : a = b := by
      rw [hsame] at hab
      exact hab
    rw [if_pos (hdepth₁.trans htop), if_pos (hdepth₂.trans (p.depth_iff.1 htop))]
    refine keeps_visits ih (List.forall₂_same.2 fun x hx => ?_) hgrid
    obtain ⟨c, hc, hx⟩ := exists_of_mem_deferredImages hx
    have hcells := List.forall₂_same.1 halike.cellNodes c hc
    exact hcells.below ht hsame hx
  · rw [if_neg fun h => htop (hdepth₁.symm.trans h),
      if_neg fun h => htop (p.depth_iff.2 (hdepth₂.symm.trans h))]
    exact hgrid

end Tables
end MarkupText.Renderer
