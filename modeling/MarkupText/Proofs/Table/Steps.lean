import MarkupText.Proofs.Render.Edits
import MarkupText.Table.Layout

/-!
# The steps of a table

What a line of a cell can be (`Cell.forall_mem_ofText`), how a cell is rendered on a page of its own
(`freshCell_eq`), how the colors of a row come and go, and how the grid is written
(`writeGrid_eq`), in the form in which the proofs about tables use them.
-/

namespace MarkupText

open Text

/-! ### Lines of cells -/

namespace Cell
variable {t : Text} {spans : List Span} {width : Nat} {fill : Bool} {background : Option Color}
  {l : CellLine}

theorem text_pad (width : Nat) (background : Option Color) (l : CellLine) :
    (pad width background l).text = l.text ++ spaces (width - l.text.width) := by
  unfold pad
  dsimp only
  split
  · rename_i hzero
    rw [hzero]
    exact (List.append_nil _).symm
  · rfl

/-- Padding adds at most one span, over the blanks. -/
theorem mem_spans_pad {a : Span} (h : a ∈ (pad width background l).spans) :
    a ∈ l.spans ∨
      ∃ c, a = ⟨l.text.size, l.text.size + (width - l.text.width), backgroundMark c⟩ := by
  unfold pad at h
  dsimp only at h
  split at h
  · exact .inl h
  · refine (List.mem_append.1 h).imp_right fun h => ?_
    obtain ⟨c, -, rfl⟩ := Option.map_eq_some_iff.1 (Option.mem_toList.1 h)
    exact ⟨c, rfl⟩

/-- Each line has a row of the text, and the spans that meet it. -/
theorem eq_of_mem_cutLines {rows : List Text} {start : Nat} (h : l ∈ cutLines spans start rows) :
    ∃ row ∈ rows, ∃ n, l = ⟨row, lineSpans spans n row.size⟩ := by
  induction rows generalizing start with
  | nil => cases h
  | cons row rows ih =>
    rcases List.mem_cons.1 h with rfl | h
    · exact ⟨row, List.mem_cons_self, start, rfl⟩
    · obtain ⟨row, hrow, hl⟩ := ih h
      exact ⟨row, List.mem_cons_of_mem _ hrow, hl⟩

/-- What holds of the lines that a text is cut into, and is kept by padding, holds of the lines of
its cell. -/
theorem forall_mem_ofText {P : CellLine → Prop} (hcut : ∀ l ∈ cutLines spans 0 t.rows, P l)
    (hpad : ∀ l, P l → P (pad width background l)) :
    ∀ l ∈ (ofText t spans width fill background).lines, P l := by
  have hlines : ∀ l ∈ (if t.isEmpty then [] else cutLines spans 0 t.rows), P l := by
    split
    · exact fun _ hl => by cases hl
    · exact hcut
  unfold ofText
  generalize (if t.isEmpty then [] else cutLines spans 0 t.rows) = lines at hlines
  cases fill with
  | false => exact hlines
  | true =>
    intro l hl
    obtain ⟨l, hmem, rfl⟩ := List.mem_map.1 hl
    exact hpad l (hlines l hmem)

end Cell

namespace Renderer

variable {s : Scene} {visit : NodeId → Renderer → Renderer} {r : Renderer}

/-! ### Cells -/

/-- The colors of a cell, and the reports about them. -/
def cellFrame (s : Scene) (cell : Option NodeId) : Frame × List Warning :=
  ((cell.bind s.tree.element?).map Element.frame).getD ({}, [])

/-- The renderer that a cell starts with. -/
def cellStart (s : Scene) (cell : Option NodeId) (width : Nat) (r : Renderer) : Renderer :=
  { page := { layout := r.layout.forCell width }, styles := r.styles, path := r.path
    visited := r.path, cache := r.cache, log := r.log.addAll (cellFrame s cell).2 }

/-- Visits a cell, if there is one. -/
def visitCell (visit : NodeId → Renderer → Renderer) : Option NodeId → Renderer → Renderer
  | some id => visit id
  | none => fun r => r

/-- A page cut into a cell. -/
def cellOf (s : Scene) (cell : Option NodeId) (width : Nat) (fill : Bool) (styles : StyleStack)
    (b : Buffer) : Cell :=
  Cell.ofText b.finish.1 b.finish.2 width fill
    (StyleStack.resolve ((cellFrame s cell).1 :: styles)).background

theorem freshCell_eq (cell : Option NodeId) (width : Nat) (fill : Bool) (r : Renderer) :
    freshCell s visit cell width fill r =
      let child := visitCell visit cell (cellStart s cell width r)
      (cellOf s cell width fill r.styles child.buffer,
        { r with cache := child.cache, log := child.log }) := by
  cases cell <;> rfl

/-! ### Rows -/

/-- Colors that come into force change nothing else but the reports. -/
theorem pushRow_eq (s : Scene) (row : Option NodeId) (r : Renderer) :
    ∃ log, (pushRow s row r).2 =
      { r with styles := if (pushRow s row r).1 then (cellFrame s row).1 :: r.styles else r.styles
               log } := by
  unfold pushRow cellFrame
  cases row.bind s.tree.element? with
  | none => exact ⟨r.log, rfl⟩
  | some e =>
    dsimp only [Option.map_some, Option.getD_some]
    split
    · exact ⟨_, rfl⟩
    · exact ⟨_, rfl⟩

@[simp] theorem page_pushRow (s : Scene) (row : Option NodeId) (r : Renderer) :
    (pushRow s row r).2.page = r.page := by
  obtain ⟨log, h⟩ := pushRow_eq s row r
  rw [h]

@[simp] theorem cache_pushRow (s : Scene) (row : Option NodeId) (r : Renderer) :
    (pushRow s row r).2.cache = r.cache := by
  obtain ⟨log, h⟩ := pushRow_eq s row r
  rw [h]

@[simp] theorem page_popRow (pushed : Bool) (r : Renderer) : (popRow pushed r).page = r.page := by
  unfold popRow; split <;> rfl

@[simp] theorem cache_popRow (pushed : Bool) (r : Renderer) :
    (popRow pushed r).cache = r.cache := by
  unfold popRow; split <;> rfl

/-! ### The grid -/

/-- Writes the line above a row of the grid, then the row under its colors. -/
def putRow (s : Scene) (indentation : Nat) (widths : List Nat) (r : Renderer)
    (row : GridRow × List Cell) : Renderer :=
  let (pushed, r) := pushRow s row.1.row
    (r.onBuffer (·.push (gridRuler indentation widths ++ ['\n'])))
  let start := r.buffer.size
  let r := r.onBuffer (writeRow indentation widths row.2)
  if pushed then (popRow pushed r).onBuffer (·.colorize start r.styles.resolve) else r

theorem writeGrid_eq (s : Scene) (widths : List Nat) (rows : List (GridRow × List Cell))
    (r : Renderer) : writeGrid s widths rows r =
      (rows.foldl (putRow s r.layout.indentation widths) r).onBuffer
        (·.push (gridRuler r.layout.indentation widths ++ ['\n'])) := by
  unfold writeGrid putRow
  simp only [colorize_eq]

/-- A property of buffers that outlasts every step of writing a grid, where the cells have the
property `Q`. -/
structure GridUpkeep (Q : Cell → Prop) (P : Buffer → Prop) : Prop where
  push : ∀ {b} t, P b → P (b.push t)
  line : ∀ {b c l}, Q c → l ∈ c.lines → P b →
    P (l.spans.foldl (fun (d : Buffer) (a : Span) => d.add (a.shift b.size)) (b.push l.text))
  blanks : ∀ {b} width color, P b → P ((b.push (spaces width)).annotate b.size
    (b.push (spaces width)).size (Cell.backgroundMark color))
  colorize : ∀ {b} start colors, P b → P (b.colorize start colors)

theorem GridUpkeep.writeRow {Q : Cell → Prop} {P : Buffer → Prop} (h : GridUpkeep Q P)
    {cells : List Cell} (hcells : ∀ c ∈ cells, Q c) (indentation : Nat) (widths : List Nat)
    {b : Buffer} (hb : P b) : P (writeRow indentation widths cells b) := by
  have hcell (i : Nat) {c : Cell} (hc : Q c) (width : Nat) {b : Buffer} (hb : P b) :
      P (writeCellLine i b c width) := by
    unfold writeCellLine
    dsimp only
    refine h.push _ ?_
    split
    · rename_i l hl
      exact h.line hc (List.mem_of_getElem? hl) hb
    · split
      · exact h.blanks _ _ hb
      · exact h.push _ hb
  have hline (i : Nat) (places : List (Cell × Nat)) (hplaces : ∀ p ∈ places, Q p.1) {b : Buffer}
      (hb : P b) : P (places.foldl (fun b p => writeCellLine i b p.1 p.2) b) := by
    induction places generalizing b with
    | nil => exact hb
    | cons p places ih =>
      obtain ⟨hp, hrest⟩ := List.forall_mem_cons.1 hplaces
      exact ih hrest (hcell i hp p.2 hb)
  have hplaces : ∀ p ∈ cells.zip widths, Q p.1 := fun p hp => hcells _ (List.of_mem_zip hp).1
  unfold Renderer.writeRow
  dsimp only
  generalize List.range _ = lines
  induction lines generalizing b with
  | nil => exact hb
  | cons i lines ih => exact ih (h.push _ (hline i (cells.zip widths) hplaces (h.push _ hb)))

/-- Writing a row of the grid changes the buffer only, and the reports. -/
theorem putRow_spec (s : Scene) (indentation : Nat) (widths : List Nat) (r : Renderer)
    (row : GridRow × List Cell) : ∃ buffer log,
      putRow s indentation widths r row = { r with page := { r.page with buffer }, log } ∧
      ∀ {Q P}, GridUpkeep Q P → (∀ c ∈ row.2, Q c) → P r.buffer → P buffer := by
  obtain ⟨log, hpush⟩ := pushRow_eq s row.1.row
    (r.onBuffer (·.push (gridRuler indentation widths ++ ['\n'])))
  unfold putRow
  generalize pushRow s row.1.row _ = pushed at hpush
  obtain ⟨pushed, q⟩ := pushed
  dsimp only at hpush ⊢
  rw [hpush]
  cases pushed with
  | false => exact ⟨_, _, rfl, fun h hrow hb => h.writeRow hrow _ _ (h.push _ hb)⟩
  | true =>
    exact ⟨_, _, rfl, fun h hrow hb => h.colorize _ _ (h.writeRow hrow _ _ (h.push _ hb))⟩

/-- Writing a grid changes the buffer only, and the reports. The line below it is written last. -/
theorem writeGrid_spec (s : Scene) (widths : List Nat) (rows : List (GridRow × List Cell))
    (r : Renderer) : ∃ buffer log, writeGrid s widths rows r =
        { r with page := r.page.onBuffer fun _ =>
                   buffer.push (gridRuler r.layout.indentation widths ++ ['\n'])
                 log } ∧
      ∀ {Q P}, GridUpkeep Q P → (∀ row ∈ rows, ∀ c ∈ row.2, Q c) → P r.buffer → P buffer := by
  rw [writeGrid_eq]
  generalize r.layout.indentation = indentation
  suffices hrows : ∃ buffer log, rows.foldl (putRow s indentation widths) r =
      { r with page := { r.page with buffer }, log } ∧
      ∀ {Q P}, GridUpkeep Q P → (∀ row ∈ rows, ∀ c ∈ row.2, Q c) → P r.buffer → P buffer by
    obtain ⟨buffer, log, hrows, hkeeps⟩ := hrows
    exact ⟨buffer, log, by rw [hrows]; rfl, hkeeps⟩
  induction rows generalizing r with
  | nil => exact ⟨r.buffer, r.log, rfl, fun _ _ hb => hb⟩
  | cons row rows ih =>
    obtain ⟨b, log, hrow, hkeeps⟩ := putRow_spec s indentation widths r row
    obtain ⟨b', log', hrows, hkeeps'⟩ := ih { r with page := { r.page with buffer := b }, log }
    refine ⟨b', log', by rw [List.foldl_cons, hrow, hrows], fun h hcells hb => ?_⟩
    obtain ⟨hfirst, hrest⟩ := List.forall_mem_cons.1 hcells
    exact hkeeps' h hrest (hkeeps h hfirst hb)

/-- What outlasts the steps outlasts the grid. -/
theorem GridUpkeep.writeGrid {Q : Cell → Prop} {P : Buffer → Prop} (h : GridUpkeep Q P)
    (s : Scene) (widths : List Nat) {rows : List (GridRow × List Cell)}
    (hrows : ∀ row ∈ rows, ∀ c ∈ row.2, Q c) {r : Renderer} (hr : P r.buffer) :
    P (writeGrid s widths rows r).buffer := by
  obtain ⟨buffer, log, hgrid, hkeeps⟩ := writeGrid_spec s widths rows r
  rw [hgrid]
  exact h.push _ (hkeeps h hrows hr)

@[simp] theorem cache_writeGrid (s : Scene) (widths : List Nat)
    (rows : List (GridRow × List Cell)) (r : Renderer) :
    (writeGrid s widths rows r).cache = r.cache := by
  obtain ⟨buffer, log, hgrid, -⟩ := writeGrid_spec s widths rows r
  rw [hgrid]

/-! ### The table -/

/-- Shows the caption of a table on lines of its own. -/
def putCaption (s : Scene) (visit : NodeId → Renderer → Renderer) (g : Grid) (r : Renderer) :
    Renderer :=
  (match g.caption with
    | some c => (s.tree.children c).foldl (fun r id => visit id r) (r.onBuffer (·.ensureNewline))
    | none => r).onBuffer (·.ensureNewline)

/-- What the columns use at some widths. -/
def trial (s : Scene) (visit : NodeId → Renderer → Renderer) (g : Grid) (widths : List Nat)
    (r : Renderer) : List Nat × Renderer :=
  let (rows, r) := renderRows s visit false widths g.rows r
  (extents g.columns rows, r)

/-- Negotiates the widths of the columns, and renders the rows for good. -/
def negotiate (s : Scene) (visit : NodeId → Renderer → Renderer) (g : Grid) (r : Renderer) :
    List Nat × List (List Cell) × Renderer :=
  let suggested := Table.prorate (g.weights s.tree) r.layout.width r.layout.indentation
  let (used, r) := trial s visit g suggested r
  let (natural, r) := trial s visit g (List.replicate g.columns naturalTrialWidth) r
  finalRows s visit g maxWidenings (Table.reconcile suggested used natural) r

/-- The widths that two trials propose, and the state after them. -/
def proposed (s : Scene) (visit : NodeId → Renderer → Renderer) (g : Grid) (r : Renderer) :
    List Nat × Renderer :=
  let suggested := Table.prorate (g.weights s.tree) r.layout.width r.layout.indentation
  let (used, r) := trial s visit g suggested r
  let (natural, r) := trial s visit g (List.replicate g.columns naturalTrialWidth) r
  (Table.reconcile suggested used natural, r)

theorem negotiate_eq (s : Scene) (visit : NodeId → Renderer → Renderer) (g : Grid) (r : Renderer) :
    negotiate s visit g r =
      finalRows s visit g maxWidenings (proposed s visit g r).1 (proposed s visit g r).2 := rfl

/-- The widths and the state after the columns were widened `n` times. -/
def widened (s : Scene) (visit : NodeId → Renderer → Renderer) (g : Grid) :
    (n : Nat) → List Nat × Renderer → List Nat × Renderer
  | 0, p => p
  | n + 1, (widths, r) =>
    let (rows, r) := renderRows s visit true widths g.rows r
    widened s visit g n (widths.zipWith max (extents g.columns rows), r)

/-- How often columns are widened, at most `passes` times. -/
def rounds (s : Scene) (visit : NodeId → Renderer → Renderer) (g : Grid) :
    (passes : Nat) → List Nat × Renderer → Nat
  | 0, _ => 0
  | passes + 1, (widths, r) =>
    let (rows, r) := renderRows s visit true widths g.rows r
    let needed := extents g.columns rows
    if (needed.zip widths).all fun (n, w) => n ≤ w then 0
    else rounds s visit g passes (widths.zipWith max needed, r) + 1

theorem rounds_le (g : Grid) (passes : Nat) (p : List Nat × Renderer) :
    rounds s visit g passes p ≤ passes := by
  induction passes generalizing p with
  | zero => exact Nat.le_refl 0
  | succ passes ih =>
    unfold rounds
    dsimp only
    split
    · exact Nat.zero_le _
    · exact Nat.succ_le_succ (ih _)

/-- The rows are rendered for good once the columns have been widened. -/
theorem finalRows_eq (g : Grid) (passes : Nat) (widths : List Nat) (r : Renderer) :
    finalRows s visit g passes widths r =
      let p := widened s visit g (rounds s visit g passes (widths, r)) (widths, r)
      (p.1, renderRows s visit true p.1 g.rows p.2) := by
  induction passes generalizing widths r with
  | zero => rfl
  | succ passes ih =>
    unfold finalRows rounds
    dsimp only
    split
    · rfl
    · exact ih _ _

/-- Writes the grid of a table. -/
def putGrid (s : Scene) (visit : NodeId → Renderer → Renderer) (g : Grid) (r : Renderer) :
    Renderer :=
  let (widths, rows, r) := negotiate s visit g r
  (writeGrid s widths (g.rows.zip rows) r).onLayout ({ · with kind := .text })

theorem table_eq (s : Scene) (visit : NodeId → Renderer → Renderer) (id : NodeId) (r : Renderer) :
    table s visit id r =
      let g := (Grid.collect s.tree id).1
      let r := putGrid s visit g
        (putCaption s visit g (r.warn (Grid.collect s.tree id).2))
      if r.layout.tableDepth = 0 then (deferredImages s g).foldl (fun r id => visit id r) r
      else r := by
  unfold table putCaption
  generalize Grid.collect s.tree id = c
  obtain ⟨g, ws⟩ := c
  cases g.caption <;> rfl

end Renderer
end MarkupText
