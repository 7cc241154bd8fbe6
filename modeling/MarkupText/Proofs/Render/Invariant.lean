import MarkupText.Proofs.Table.Steps
import MarkupText.Render.Descent
import Mathlib.Data.List.Forall2

/-!
# What a descent keeps

`Renderer.Invariant s K P` says that a property `K` of pages outlasts every single step that a rule
takes, and that the cells cut from such pages have the property `P` under their keys. A descent then
keeps both (`Renderer.Invariant.node`): what a rule does is named once here, and a proof of an invariant
has a field for each step instead of a case for each rule.
-/

namespace MarkupText

namespace Cache

/-- Every cell that is kept has a property under its key. -/
def Keeps {κ : Type} (P : κ → Cell → Prop) (c : Cache κ) : Prop := ∀ e ∈ c.entries, P e.1 e.2

variable {κ : Type} [DecidableEq κ] {P : κ → Cell → Prop} {c : Cache κ} {key : κ} {cell : Cell}

theorem Keeps.find? (h : c.Keeps P) (hfind : c.find? key = some cell) : P key cell := by
  obtain ⟨e, he, rfl⟩ := Option.map_eq_some_iff.1 hfind
  have hkey := List.find?_some he
  rw [← of_decide_eq_true hkey]
  exact h e (List.mem_of_find?_eq_some he)

theorem Keeps.store (h : c.Keeps P) (hcell : P key cell) : (c.store key cell).Keeps P := by
  intro e he
  rcases List.mem_cons.1 he with rfl | he
  · exact hcell
  · exact h e (List.mem_filter.1 he).1

end Cache

namespace Renderer

/-- A property of pages, without images if the first argument is true, that the steps of a rule
keep, and one of the cells that are cut from pages without images. -/
structure Invariant (s : Scene) (K : Bool → Page → Prop) (P : CellKey → Cell → Prop) : Prop where
  layout : ∀ {b p} (f : Layout → Layout), (f p.layout).kind = p.layout.kind →
    (f p.layout).inhibitImages = p.layout.inhibitImages → K b p → K b (p.onLayout f)
  ensureNewline : ∀ {b p}, K b p → K b (p.onBuffer (·.ensureNewline))
  ensureParagraph : ∀ {b p}, K b p → K b (p.onBuffer (·.ensureParagraph))
  openRegion : ∀ {b p}, K b p → K b (p.onBuffer (·.openRegion))
  endRegion : ∀ {b p} mark, mark.isRegion = true → K b p → K b (p.onBuffer (·.endRegion mark))
  endColors : ∀ {b p} colors, K b p → K b (p.onBuffer (·.endColors colors))
  insert : ∀ {b p} t, K b p → K b (p.insert s.options.rules t)
  lineBreak : ∀ {b r}, K b r.page → K b (lineBreak r).page
  ruler : ∀ {b r}, K b r.page → K b (ruler r).page
  labelled : ∀ {b r}, K b r.page → K b (labelled r).page
  image : ∀ {b r} e, K b r.page → K b (image s e r).page
  cell : ∀ (l : Layout) width, K true { layout := l.forCell width }
  cut : ∀ {p} cell (key : CellKey), K true p →
    P key (cellOf s cell key.width key.fill key.style p.buffer)
  grid : ∀ {b r} widths rows, (∀ row ∈ rows, ∀ c ∈ row.2, ∃ key, P key c) → K b r.page →
    K b ((writeGrid s widths rows r).onLayout ({ · with kind := .text })).page

/-- The page and the cells that are kept have the properties. -/
structure Good (K : Bool → Page → Prop) (P : CellKey → Cell → Prop) (b : Bool) (r : Renderer) :
    Prop where
  page : K b r.page
  cache : r.cache.Keeps P

variable {s : Scene} {K : Bool → Page → Prop} {P : CellKey → Cell → Prop} {b : Bool}
  {r r' : Renderer} {body : Renderer → Renderer} {visit : NodeId → Renderer → Renderer}

theorem Good.of_cache (h : Good K P b r) (hcache : r'.cache = r.cache) (hpage : K b r'.page) :
    Good K P b r' :=
  ⟨hpage, hcache ▸ h.cache⟩

theorem Good.of_page (h : Good K P b r) (hcache : r'.cache = r.cache) (hpage : r'.page = r.page) :
    Good K P b r' :=
  h.of_cache hcache (hpage ▸ h.page)

/-- A step keeps both properties. -/
def Good.Step (K : Bool → Page → Prop) (P : CellKey → Cell → Prop) (f : Renderer → Renderer) :
    Prop :=
  ∀ ⦃b r⦄, Good K P b r → Good K P b (f r)

namespace Invariant
variable (h : Invariant s K P)
include h

/-! ### Rules -/

section Rules
variable (hbody : Good.Step K P body)

theorem onLayout (f : Layout → Layout) (hkind : ∀ l, (f l).kind = l.kind)
    (himages : ∀ l, (f l).inhibitImages = l.inhibitImages) : Good.Step K P (·.onLayout f) :=
  fun _ _ hr => hr.of_cache rfl (h.layout f (hkind _) (himages _) hr.page)

theorem newLine : Good.Step K P (·.onBuffer (·.ensureNewline)) :=
  fun _ _ hr => hr.of_cache rfl (h.ensureNewline hr.page)

theorem newParagraph : Good.Step K P (·.onBuffer (·.ensureParagraph)) :=
  fun _ _ hr => hr.of_cache rfl (h.ensureParagraph hr.page)

theorem insertText (t : Text) : Good.Step K P (insertText s t) :=
  fun _ _ hr => hr.of_cache rfl (h.insert t hr.page)

theorem separateList (nested : Bool) : Good.Step K P (·.onBuffer (separateList nested)) := by
  cases nested
  · exact h.newParagraph
  · exact h.newLine

theorem imageStep (e : Element) : Good.Step K P (Renderer.image s e) := by
  intro b r hr
  obtain ⟨page, images, heq, -⟩ := image_spec (fun _ _ _ => RangeRule.within_of_tight) s e r
  have hpage := h.image e hr.page
  rw [heq] at hpage ⊢
  exact hr.of_cache rfl hpage

include hbody

theorem inParagraph : Good.Step K P (inParagraph body) :=
  fun _ _ hr => h.newParagraph (hbody (h.newParagraph hr))

theorem inBlock : Good.Step K P (inBlock body) :=
  fun _ _ hr => h.newLine (hbody (h.newLine hr))

theorem region {mark : Mark} (hmark : mark.isRegion = true) : Good.Step K P (region mark body) := by
  intro b r hr
  have hopen : Good K P b (r.onBuffer (·.openRegion)) := hr.of_cache rfl (h.openRegion hr.page)
  have hin := hbody hopen
  rw [region_eq]
  exact hin.of_cache rfl (h.endRegion mark hmark hin.page)

theorem indented (extra : Nat) : Good.Step K P (indented extra body) := by
  intro b r hr
  have hin := hbody (h.onLayout ({ · with indentation := r.layout.indentation + extra })
    (fun _ => rfl) (fun _ => rfl) hr)
  exact h.onLayout ({ · with indentation := r.layout.indentation }) (fun _ => rfl) (fun _ => rfl) hin

theorem inColors (e : Element) : Good.Step K P (inColors s e body) := by
  intro b r hr
  by_cases hframe : e.frame.1.isEmpty = true
  · rw [inColors_eq_of_isEmpty hframe]
    exact hbody (hr.of_page rfl rfl)
  · rw [inColors_eq hframe]
    have hopen : Good K P b ({ r.warn e.frame.2 with
        styles := e.frame.1 :: r.styles }.onBuffer (·.openRegion)) :=
      hr.of_cache rfl (h.openRegion hr.page)
    have hin := hbody hopen
    exact hin.of_cache rfl (h.endColors _ hin.page)

theorem link (e : Element) : Good.Step K P (link e body) := by
  unfold Renderer.link
  cases e.filledAttr? "href" with
  | none => exact hbody
  | some href => exact h.region hbody rfl

theorem media (label : String) (e : Element) : Good.Step K P (media s label e body) := by
  unfold Renderer.media
  cases e.filledAttr? "src" with
  | none => exact hbody
  | some source => exact h.region (h.insertText _) rfl

theorem list (numbered : Bool) (e : Element) : Good.Step K P (list numbered e body) := by
  intro b r hr
  have hin := hbody (h.onLayout ({ · with list := firstLabel numbered e }) (fun _ => rfl)
    (fun _ => rfl) (h.separateList (r.layout.list != .none) hr))
  exact h.separateList (r.layout.list != .none)
    (h.onLayout ({ · with list := r.layout.list }) (fun _ => rfl) (fun _ => rfl) hin)

theorem item : Good.Step K P (item body) := by
  intro b r hr
  have hlabel : Good K P b (Renderer.labelled r) := hr.of_cache rfl (h.labelled hr.page)
  have hin := h.indented hbody (labelText r.layout.list).width hlabel
  rw [item_eq]
  exact h.onLayout (fun l => { l with list := nextLabel l.list }) (fun _ => rfl) (fun _ => rfl)
    (h.newLine hin)

theorem preformatted : Good.Step K P (preformatted body) := by
  refine h.inParagraph fun b r hr => ?_
  have hregion : Good.Step K P (Renderer.region (.face .monospace) body) := h.region hbody rfl
  have hin := hregion (h.onLayout ({ · with fold := .verbatim }) (fun _ => rfl) (fun _ => rfl) hr)
  exact h.onLayout ({ · with fold := r.layout.fold }) (fun _ => rfl) (fun _ => rfl) hin

end Rules

/-! ### Tables -/

section Tables
variable (hvisit : ∀ id, Good.Step K P (visit id))
include hvisit

omit h in
theorem foldl (ids : List NodeId) : Good.Step K P fun r => ids.foldl (fun r id => visit id r) r := by
  intro b r hr
  induction ids generalizing r with
  | nil => exact hr
  | cons id ids ih => exact ih (hvisit id hr)

/-- A step that draws something aside: the page stays, and the cells that are kept have the
property. -/
structure Drawn {α : Type} (P : CellKey → Cell → Prop) (Q : α → Prop) (r : Renderer)
    (out : α × Renderer) : Prop where
  drawn : Q out.1
  page : out.2.page = r.page
  cache : out.2.cache.Keeps P

theorem drawn_freshCell (cell : Option NodeId) (width : Nat) (fill : Bool) (r : Renderer)
    (hr : r.cache.Keeps P) :
    Drawn P (P (cellKey s cell width fill r)) r (freshCell s visit cell width fill r) := by
  have hstart : Good K P true (cellStart s cell width r) := ⟨h.cell r.layout width, hr⟩
  have hchild : Good K P true (visitCell visit cell (cellStart s cell width r)) := by
    cases cell with
    | none => exact hstart
    | some id => exact hvisit id hstart
  rw [freshCell_eq]
  exact ⟨h.cut cell (cellKey s cell width fill r) hchild.page, rfl, hchild.cache⟩

theorem drawn_renderCell (fill : Bool) (cell : Option NodeId) (width : Nat) (r : Renderer)
    (hr : r.cache.Keeps P) :
    Drawn P (P (cellKey s cell width fill r)) r (renderCell s visit fill cell width r) := by
  unfold renderCell
  split
  · unfold cachedCell Cache.lookup
    dsimp only
    cases hfind : r.cache.find? (cellKey s cell width fill r) with
    | some found => exact ⟨hr.find? hfind, rfl, hr⟩
    | none =>
      have hfresh := h.drawn_freshCell hvisit cell width fill
        { r with cache := { r.cache with misses := r.cache.misses + 1 } } hr
      exact ⟨hfresh.drawn, hfresh.page, hfresh.cache.store hfresh.drawn⟩
  · exact h.drawn_freshCell hvisit cell width fill r hr

/-- Cells drawn for the places of a row have the property under keys of their widths. -/
def RowDrawn (P : CellKey → Cell → Prop) (fill : Bool) (places : List (Option NodeId × Nat))
    (cells : List Cell) : Prop :=
  List.Forall₂ (fun place c => ∃ key, key.width = place.2 ∧ key.fill = fill ∧ P key c) places cells

omit h hvisit in
theorem RowDrawn.exists_key {fill : Bool} {places : List (Option NodeId × Nat)} {cells : List Cell}
    (hcells : RowDrawn P fill places cells) {c : Cell} (hc : c ∈ cells) : ∃ key, P key c := by
  induction hcells with
  | nil => cases hc
  | cons hcell _ ih =>
    rcases List.mem_cons.1 hc with rfl | hc
    · obtain ⟨key, -, -, hkey⟩ := hcell
      exact ⟨key, hkey⟩
    · exact ih hc

theorem drawn_renderCells (fill : Bool) (places : List (Option NodeId × Nat)) (r : Renderer)
    (hr : r.cache.Keeps P) :
    Drawn P (RowDrawn P fill places) r (renderCells s visit fill places r) := by
  induction places generalizing r with
  | nil => exact ⟨.nil, rfl, hr⟩
  | cons place places ih =>
    have hcell := h.drawn_renderCell hvisit fill place.1 place.2 r hr
    have hcells := ih _ hcell.cache
    exact ⟨.cons ⟨_, rfl, rfl, hcell.drawn⟩ hcells.drawn, hcells.page.trans hcell.page,
      hcells.cache⟩

theorem drawn_renderRows (fill : Bool) (widths : List Nat) (rows : List GridRow) (r : Renderer)
    (hr : r.cache.Keeps P) :
    Drawn P (List.Forall₂ (fun row : GridRow => RowDrawn P fill (row.cells.zip widths)) rows) r
      (renderRows s visit fill widths rows r) := by
  induction rows generalizing r with
  | nil => exact ⟨.nil, rfl, hr⟩
  | cons row rows ih =>
    have hcells := h.drawn_renderCells hvisit fill (row.cells.zip widths) (pushRow s row.row r).2
      (by rwa [cache_pushRow])
    have hrows := ih (popRow (pushRow s row.row r).1
      (renderCells s visit fill (row.cells.zip widths) (pushRow s row.row r).2).2)
      (by rw [cache_popRow]; exact hcells.cache)
    refine ⟨.cons hcells.drawn hrows.drawn, hrows.page.trans ?_, hrows.cache⟩
    rw [page_popRow, hcells.page, page_pushRow]

/-- The rows of a table that are written are drawn, filled, at the widths that are written. -/
theorem drawn_finalRows (g : Grid) (passes : Nat) (widths : List Nat) (r : Renderer)
    (hr : r.cache.Keeps P) :
    Drawn P (List.Forall₂ (fun row : GridRow => RowDrawn P true
        (row.cells.zip (finalRows s visit g passes widths r).1)) g.rows) r
      (finalRows s visit g passes widths r).2 := by
  induction passes generalizing widths r with
  | zero => exact h.drawn_renderRows hvisit true widths g.rows r hr
  | succ passes ih =>
    have hrows := h.drawn_renderRows hvisit true widths g.rows r hr
    unfold finalRows
    dsimp only
    split
    · exact hrows
    · have := ih (widths.zipWith max (extents g.columns
        (renderRows s visit true widths g.rows r).1)) _ hrows.cache
      exact ⟨this.drawn, this.page.trans hrows.page, this.cache⟩

theorem drawn_trial (g : Grid) (widths : List Nat) (r : Renderer) (hr : r.cache.Keeps P) :
    Drawn P (fun _ => True) r (trial s visit g widths r) :=
  have hrows := h.drawn_renderRows hvisit false widths g.rows r hr
  ⟨trivial, hrows.page, hrows.cache⟩

theorem drawn_proposed (g : Grid) (r : Renderer) (hr : r.cache.Keeps P) :
    Drawn P (fun _ => True) r (proposed s visit g r) :=
  have hused := h.drawn_trial hvisit g
    (Table.prorate (g.weights s.tree) r.layout.width r.layout.indentation) r hr
  have hnatural := h.drawn_trial hvisit g (List.replicate g.columns naturalTrialWidth) _ hused.cache
  ⟨trivial, hnatural.page.trans hused.page, hnatural.cache⟩

theorem drawn_negotiate (g : Grid) (r : Renderer) (hr : r.cache.Keeps P) :
    Drawn P (List.Forall₂ (fun row : GridRow => RowDrawn P true
        (row.cells.zip (negotiate s visit g r).1)) g.rows) r (negotiate s visit g r).2 := by
  have hproposed := h.drawn_proposed hvisit g r hr
  have hfinal := h.drawn_finalRows hvisit g maxWidenings (proposed s visit g r).1 _ hproposed.cache
  rw [negotiate_eq]
  exact ⟨hfinal.drawn, hfinal.page.trans hproposed.page, hfinal.cache⟩

theorem putCaption (g : Grid) : Good.Step K P (putCaption s visit g) := by
  intro b r hr
  unfold Renderer.putCaption
  cases g.caption with
  | none => exact h.newLine hr
  | some c => exact h.newLine (foldl hvisit (s.tree.children c) (h.newLine hr))

theorem putGrid (g : Grid) : Good.Step K P (putGrid s visit g) := by
  intro b r hr
  have hdrawn := h.drawn_negotiate hvisit g r hr.cache
  unfold Renderer.putGrid
  generalize negotiate s visit g r = out at hdrawn
  obtain ⟨widths, rows, r'⟩ := out
  have hpage : K b r'.page := hdrawn.page ▸ hr.page
  refine ⟨h.grid widths (g.rows.zip rows) (fun row hrow c hc => ?_) hpage, ?_⟩
  · exact (List.forall₂_zip hdrawn.drawn hrow).exists_key hc
  · change (writeGrid s widths (g.rows.zip rows) r').cache.Keeps P
    rw [cache_writeGrid]
    exact hdrawn.cache

theorem table (id : NodeId) : Good.Step K P (table s visit id) := by
  intro b r hr
  have hwarn : Good K P b (r.warn (Grid.collect s.tree id).2) := hr.of_page rfl rfl
  have hgrid := h.putGrid hvisit (Grid.collect s.tree id).1 (h.putCaption hvisit
    (Grid.collect s.tree id).1 hwarn)
  rw [table_eq]
  dsimp only
  split
  · exact foldl hvisit _ hgrid
  · exact hgrid

end Tables

/-! ### The descent -/

theorem rule (hvisit : ∀ id, Good.Step K P (visit id)) (id : NodeId) (e : Element) :
    Good.Step K P (rule s visit id e) := by
  have hbelow : Good.Step K P (children s visit id) := foldl hvisit _
  unfold Renderer.rule
  cases e.tag.role with
  | inline => exact hbelow
  | hidden => exact fun _ _ hr => hr
  | head => exact foldl hvisit _
  | paragraph => exact h.inParagraph hbelow
  | block => exact h.inBlock hbelow
  | lineBreak => exact fun _ _ hr => hr.of_cache rfl (h.lineBreak hr.page)
  | ruler => exact fun _ _ hr => hr.of_cache rfl (h.ruler hr.page)
  | heading => exact h.inParagraph (h.region hbelow rfl)
  | link => exact h.link hbelow e
  | image => exact h.imageStep e
  | media label => exact h.media hbelow label e
  | list numbered => exact h.list hbelow numbered e
  | item => exact h.item hbelow
  | quote => exact h.inParagraph (h.indented hbelow _)
  | definition => exact h.inBlock (h.indented hbelow _)
  | preformatted => exact h.preformatted hbelow
  | table => exact h.table hvisit id
  | face f => exact h.region hbelow rfl

theorem content (hvisit : ∀ id, Good.Step K P (visit id)) (id : NodeId) (c : Content) :
    Good.Step K P (content s visit id c) := by
  cases c with
  | document => exact foldl hvisit _
  | text t => exact h.insertText t
  | comment t => exact fun _ _ hr => hr
  | element e => exact h.inColors (h.rule hvisit id e) e

/-- A descent keeps what its steps keep. -/
theorem node (levels : Nat) (id : NodeId) : Good.Step K P (node s levels id) := by
  induction levels generalizing id with
  | zero => exact fun _ _ hr => hr.of_page rfl rfl
  | succ levels ih =>
    intro b r hr
    unfold Renderer.node
    cases s.tree.get? id with
    | none => exact hr
    | some n =>
      by_cases hmem : id ∈ r.visited
      · simp only [hmem, if_true]
        exact hr.of_page rfl rfl
      · simp only [hmem, if_false]
        have henter : Good K P b { r with visited := id :: r.visited, path := id :: r.path } :=
          hr.of_page rfl rfl
        exact (h.content ih id n.content henter).of_page rfl rfl

end Invariant
end Renderer
end MarkupText
