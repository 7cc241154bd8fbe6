import MarkupText.Proofs.Table.Aligned
import MarkupText.Proofs.Text.Painted

/-!
# Cells in the grid

`Renderer.paintedGrid` says how the grid of some cells looks, character by character with the marks
over each: the rows of a cell stand below each other in its column, with the marks they have in the
text of the cell; what fills up a line has the background of the cell and no other mark; rulers and
bars have none. Cutting the texts of the cells into lines and writing the grid gives just that,
apart from the colors that rows lay over it (`writeGrid_intact`).
-/

namespace MarkupText

open Text

/-- The finished text of a cell. -/
structure CellText where
  text : Text
  spans : List Span
  background : Option Color

namespace CellText

/-- The cell, cut from its text for a column. -/
def cell (c : CellText) (width : Nat) : Cell := .ofText c.text c.spans width true c.background

/-- The lines of the text, painted. -/
def rows (c : CellText) : List Painted :=
  if c.text.isEmpty then [] else (paint c.spans 0 c.text).rows

/-- Blanks in the background of the cell. -/
def blanks (c : CellText) (n : Nat) : Painted :=
  .replicate n (' ', {m | m ∈ c.background.map Cell.backgroundMark})

/-- A line, filled up with blanks to the width of a column. -/
def padded (c : CellText) (width : Nat) (p : Painted) : Painted :=
  p ++ c.blanks (width - p.text.width)

/-- What stands in line `i` of the column: a line of the cell, and blanks below the last one. -/
def line (c : CellText) (width i : Nat) : Painted :=
  match c.rows[i]? with
  | some p => c.padded width p
  | none => c.blanks width

end CellText

/-! ### Lines of cells -/

/-- The line with the marks over its characters. -/
def CellLine.painted (l : CellLine) : Painted := paint l.spans 0 l.text

/-- No span reaches beyond the line. -/
def CellLine.Within (l : CellLine) : Prop := ∀ a ∈ l.spans, a.stop ≤ l.text.size

namespace Cell
variable {t : Text} {spans : List Span} {start : Nat} {l : CellLine}

theorem within_lineSpans (spans : List Span) (start : Nat) (t : Text) :
    CellLine.Within ⟨t, lineSpans spans start t.size⟩ := by
  intro a ha
  obtain ⟨a, -, rfl⟩ := List.mem_map.1 ha
  change min a.stop (start + t.size) - start ≤ t.size
  omega

/-- A span covers a character of a line if it does so in the text. -/
theorem paint_lineSpans (spans : List Span) (start : Nat) (t : Text) :
    paint (lineSpans spans start t.size) 0 t = paint spans start t := by
  refine paint_congr fun p q hlt hle => ?_
  ext m
  rw [Nat.zero_add, Nat.zero_add]
  constructor
  · rintro ⟨a, ha, rfl, hstart, hstop⟩
    obtain ⟨a, hmem, rfl⟩ := List.mem_map.1 ha
    have hstart : max a.start start - start ≤ p := hstart
    have hstop : q ≤ min a.stop (start + t.size) - start := hstop
    exact ⟨a, (List.mem_filter.1 hmem).1, rfl, by omega, by omega⟩
  · rintro ⟨a, ha, rfl, hstart, hstop⟩
    have hmeets : a.meets start (start + t.size) = true := by
      simp only [Span.meets, Bool.and_eq_true, decide_eq_true_eq]
      omega
    refine ⟨_, List.mem_map.2 ⟨a, List.mem_filter.2 ⟨ha, hmeets⟩, rfl⟩, rfl, ?_, ?_⟩
    · change max a.start start - start ≤ p
      omega
    · change q ≤ min a.stop (start + t.size) - start
      omega

theorem painted_cutLines (spans : List Span) (start : Nat) (ts : List Text) :
    (cutLines spans start ts).map CellLine.painted = paintRows spans start ts ∧
      ∀ l ∈ cutLines spans start ts, l.Within := by
  induction ts generalizing start with
  | nil => exact ⟨rfl, fun _ hl => by cases hl⟩
  | cons t ts ih =>
    obtain ⟨hpainted, hwithin⟩ := ih (start + t.size + 1)
    refine ⟨?_, List.forall_mem_cons.2 ⟨within_lineSpans spans start t, hwithin⟩⟩
    rw [cutLines, List.map_cons, paintRows, hpainted, ← paint_lineSpans]
    rfl

/-- Padding a line marks the blanks behind it, and nothing else. -/
theorem painted_pad (width : Nat) (background : Option Color) (hl : l.Within) :
    (pad width background l).painted = l.painted ++
        .replicate (width - l.text.width) (' ', {m | m ∈ background.map backgroundMark}) ∧
      (pad width background l).Within := by
  unfold pad
  dsimp only
  split
  · rename_i hzero
    rw [hzero]
    exact ⟨(List.append_nil _).symm, hl⟩
  · generalize width - l.text.width = n
    have hspans : (background.map fun c =>
        (⟨l.text.size, l.text.size + n, backgroundMark c⟩ : Span)) =
          (background.map backgroundMark).map fun m => ⟨l.text.size, l.text.size + n, m⟩ := by
      rw [Option.map_map]
      rfl
    rw [hspans]
    constructor
    · refine paint_append_append rfl (paint_spaces l.text.size n _) (Nat.zero_add _) hl ?_
      intro a ha
      obtain ⟨m, -, rfl⟩ := Option.map_eq_some_iff.1 (Option.mem_toList.1 ha)
      exact Nat.le_refl _
    · intro a ha
      change a.stop ≤ size (l.text ++ spaces n)
      rw [size_append, size_spaces]
      rcases List.mem_append.1 ha with ha | ha
      · exact Nat.le_trans (hl a ha) (Nat.le_add_right ..)
      · obtain ⟨m, -, rfl⟩ := Option.map_eq_some_iff.1 (Option.mem_toList.1 ha)
        exact Nat.le_refl _

end Cell

namespace CellText

/-- The lines of the cell are those of its text, padded. -/
theorem painted_cell (c : CellText) (width : Nat) :
    (c.cell width).lines.map CellLine.painted = c.rows.map (c.padded width) ∧
      ∀ l ∈ (c.cell width).lines, l.Within := by
  have hlines : ∃ lines : List CellLine, (c.cell width).lines =
      lines.map (Cell.pad width c.background) ∧ lines.map CellLine.painted = c.rows ∧
        ∀ l ∈ lines, l.Within := by
    refine ⟨_, rfl, ?_⟩
    unfold rows
    split
    · exact ⟨rfl, fun _ hl => by cases hl⟩
    · rw [rows_paint]
      exact Cell.painted_cutLines c.spans 0 c.text.rows
  obtain ⟨lines, hcell, hrows, hwithin⟩ := hlines
  rw [hcell, ← hrows]
  constructor
  · rw [List.map_map, List.map_map]
    refine List.map_congr_left fun l hl => ?_
    refine (Cell.painted_pad width c.background (hwithin l hl)).1.trans ?_
    simp only [padded, blanks, Function.comp_apply, CellLine.painted, text_paint]
  · intro l hl
    obtain ⟨line, hline, rfl⟩ := List.mem_map.1 hl
    exact (Cell.painted_pad width c.background (hwithin line hline)).2

end CellText

/-! ### The grid -/

namespace Renderer

/-- How many lines a row takes: as many as its highest cell, and at least one. -/
def rowHeight (places : List (CellText × Nat)) : Nat :=
  max 1 ((places.map fun (c, _) => c.rows.length).foldl max 0)

/-- Line `i` of a row, bars included. -/
def paintedLine (indentation : Nat) (places : List (CellText × Nat)) (i : Nat) : Painted :=
  Painted.plain (spaces indentation ++ ['|']) ++
    (places.flatMap fun (c, w) => c.line w i ++ Painted.plain ['|']) ++ Painted.plain ['\n']

/-- A row of cells, each with the width of its column. -/
def paintedRow (indentation : Nat) (places : List (CellText × Nat)) : Painted :=
  (List.range (rowHeight places)).flatMap (paintedLine indentation places)

/-- The grid of some rows of cells. -/
def paintedGrid (indentation : Nat) (widths : List Nat) (rows : List (List CellText)) : Painted :=
  (rows.flatMap fun cells => Painted.plain (gridRuler indentation widths ++ ['\n']) ++
    paintedRow indentation (cells.zip widths)) ++
      Painted.plain (gridRuler indentation widths ++ ['\n'])

variable {b : Buffer} {indentation : Nat} {widths : List Nat}

/-- A column of a row holds the lines of its cell in order, and blanks below them. -/
theorem map_line_range {places : List (CellText × Nat)} {c : CellText} {w : Nat}
    (h : (c, w) ∈ places) : (List.range (rowHeight places)).map (c.line w) =
      c.rows.map (c.padded w) ++
        List.replicate (rowHeight places - c.rows.length) (c.blanks w) := by
  have hheight : c.rows.length ≤ rowHeight places :=
    Nat.le_trans (Cell.le_foldl_max (.inl (List.mem_map.2 ⟨(c, w), h, rfl⟩)))
      (Nat.le_max_right ..)
  obtain ⟨n, hn⟩ := Nat.exists_eq_add_of_le hheight
  rw [hn, Nat.add_sub_cancel_left, List.range_add, List.map_append, List.map_map]
  congr 1
  · refine List.ext_getElem (by simp) fun i hi hi' => ?_
    have hlt : i < c.rows.length := by simpa using hi'
    simp [CellText.line, hlt]
  · refine List.eq_replicate_iff.2 ⟨by simp, fun p hp => ?_⟩
    obtain ⟨i, -, rfl⟩ := List.mem_map.1 hp
    simp [CellText.line]

/-- The blanks below a cell are marked with its background. -/
theorem paints_blanks (b : Buffer) (c : CellText) (width : Nat) :
    ∃ S, b.Paints S (c.blanks width) (match c.background with
      | some k => (b.push (spaces width)).annotate b.size (b.push (spaces width)).size
          (Cell.backgroundMark k)
      | none => b.push (spaces width)) := by
  have hpaint := paint_spaces 0 width (c.background.map Cell.backgroundMark)
  obtain ⟨S, hS⟩ := b.paints_addAll (spaces width)
    ((c.background.map Cell.backgroundMark).map fun m => ⟨0, 0 + width, m⟩).toList
    fun a ha => by
      obtain ⟨m, -, rfl⟩ := Option.map_eq_some_iff.1 (Option.mem_toList.1 ha)
      rw [size_spaces]
      exact Nat.le_of_eq (Nat.zero_add _)
  rw [hpaint] at hS
  refine ⟨S, ?_⟩
  unfold CellText.blanks
  generalize c.background = background at hS ⊢
  cases background with
  | none => exact hS
  | some k =>
    have hstop : (b.push (spaces width)).size = 0 + width + b.size := by
      rw [Buffer.size_push, size_spaces]
      omega
    dsimp only
    rw [hstop]
    simpa [Buffer.add, Span.shift] using hS

theorem paints_writeCellLine (b : Buffer) (c : CellText) (width i : Nat) :
    ∃ S, b.Paints S (c.line width i ++ Painted.plain ['|'])
      (writeCellLine i b (c.cell width) width) := by
  obtain ⟨hpainted, hwithin⟩ := c.painted_cell width
  have hlines : (c.rows[i]?).map (c.padded width) =
      ((c.cell width).lines[i]?).map CellLine.painted := by
    rw [← List.getElem?_map, ← List.getElem?_map, hpainted]
  have hbar {p : Painted} {b' : Buffer} (h : ∃ S, b.Paints S p b') :
      ∃ S, b.Paints S (p ++ Painted.plain ['|']) (b'.push ['|']) := by
    obtain ⟨S, hS⟩ := h
    exact ⟨_, hS.trans (.push b' ['|'])⟩
  unfold writeCellLine CellText.line
  dsimp only
  cases hline : (c.cell width).lines[i]? with
  | some l =>
    rw [hline] at hlines
    obtain ⟨p, hp, hl⟩ := Option.map_eq_some_iff.1 hlines
    have hwritten := b.paints_addAll l.text l.spans (hwithin l (List.mem_of_getElem? hline))
    rw [List.foldl_map] at hwritten
    rw [hp]
    dsimp only
    rw [hl]
    exact hbar hwritten
  | none =>
    rw [hline] at hlines
    rw [Option.map_eq_none_iff.1 hlines]
    exact hbar (paints_blanks b c width)

theorem paints_writeRowLine (b : Buffer) (indentation : Nat) (widths : List Nat)
    (cells : List CellText) (i : Nat) :
    ∃ S, b.Paints S (paintedLine indentation (cells.zip widths) i)
      (writeRowLine indentation widths (cells.zipWith CellText.cell widths) b i) := by
  have hcells (places : List (CellText × Nat)) (b : Buffer) :
      ∃ S, b.Paints S (places.flatMap fun (c, w) => c.line w i ++ Painted.plain ['|'])
        ((places.map fun place => (place.1.cell place.2, place.2)).foldl
          (fun b place => writeCellLine i b place.1 place.2) b) := by
    induction places generalizing b with
    | nil => exact ⟨_, .refl b⟩
    | cons place places ih =>
      obtain ⟨S, hS⟩ := paints_writeCellLine b place.1 place.2 i
      obtain ⟨T, hT⟩ := ih (writeCellLine i b (place.1.cell place.2) place.2)
      exact ⟨_, hS.trans hT⟩
  have hplaces : (cells.zipWith CellText.cell widths).zip widths =
      (cells.zip widths).map fun place => (place.1.cell place.2, place.2) := by
    induction cells generalizing widths with
    | nil => rfl
    | cons c cells ih =>
      cases widths with
      | nil => rfl
      | cons w widths => exact congrArg (_ :: ·) (ih widths)
  unfold writeRowLine paintedLine
  dsimp only
  rw [hplaces]
  obtain ⟨S, hS⟩ := hcells (cells.zip widths) (b.push (spaces indentation ++ ['|']))
  exact ⟨_, ((Buffer.Paints.push b _).trans hS).trans (.push _ ['\n'])⟩

theorem paints_writeRow (b : Buffer) (indentation : Nat) (widths : List Nat)
    (cells : List CellText) :
    ∃ S, b.Paints S (paintedRow indentation (cells.zip widths))
      (writeRow indentation widths (cells.zipWith CellText.cell widths) b) := by
  have hheight : max 1 (((cells.zipWith CellText.cell widths).map (·.lines.length)).foldl max 0) =
      rowHeight (cells.zip widths) := by
    have hlengths : (cells.zipWith CellText.cell widths).map (·.lines.length) =
        (cells.zip widths).map fun (c, _) => c.rows.length := by
      rw [List.map_zipWith, ← List.map_uncurry_zip_eq_zipWith]
      refine List.map_congr_left fun (c, w) _ => ?_
      have := congrArg List.length (c.painted_cell w).1
      simpa using this
    rw [rowHeight, hlengths]
  unfold writeRow paintedRow
  dsimp only
  rw [hheight]
  generalize List.range _ = lines
  induction lines generalizing b with
  | nil => exact ⟨_, .refl b⟩
  | cons i lines ih =>
    obtain ⟨S, hS⟩ := paints_writeRowLine b indentation widths cells i
    obtain ⟨T, hT⟩ := ih (writeRowLine indentation widths (cells.zipWith CellText.cell widths) b i)
    exact ⟨_, hS.trans hT⟩

/-! ### The colors of rows -/

/-- What a row lays over its cells: colors, and none if it declares none. -/
def RowColors (s : Scene) (row : GridRow) (own : List Span) : Prop :=
  (∀ a ∈ own, a.mark.isColors = true) ∧ ((cellFrame s row.row).1.isEmpty = true → own = [])

theorem pushed_pushRow (s : Scene) (row : Option NodeId) (r : Renderer) :
    (pushRow s row r).1 = !(cellFrame s row).1.isEmpty := by
  unfold pushRow cellFrame
  cases row.bind s.tree.element? with
  | none => rfl
  | some e =>
    dsimp only [Option.map_some, Option.getD_some]
    split
    · rename_i hempty
      rw [hempty]
      rfl
    · rename_i hsome
      exact (Bool.eq_false_iff.2 hsome ▸ rfl : true = !e.frame.1.isEmpty)

theorem colorize_spans (b : Buffer) (start : Nat) (colors : ColorPair) :
    (b.colorize start colors).text = b.text ∧ ∃ own, (b.colorize start colors).spans =
      b.spans ++ own ∧ ∀ a ∈ own, a.mark.isColors = true := by
  refine Buffer.colorize_induct (P := fun c => c.text = b.text ∧ ∃ own, c.spans = b.spans ++ own ∧
    ∀ a ∈ own, a.mark.isColors = true) colors ?_ ⟨rfl, [], (List.append_nil _).symm, nofun⟩ start
  rintro c start stop ⟨htext, own, hspans, hown⟩
  refine ⟨(Buffer.text_markVisible ..).trans htext, ?_⟩
  unfold Buffer.markVisible Buffer.annotate
  split
  · split
    · refine ⟨own ++ [_], by rw [hspans, List.append_assoc], fun a ha => ?_⟩
      rcases List.mem_append.1 ha with ha | ha
      · exact hown a ha
      · rw [List.mem_singleton.1 ha]
        rfl
    · exact ⟨own, hspans, hown⟩
  · exact ⟨own, hspans, hown⟩

/-- The painted text `p` stands behind what `b` holds. It is marked by the spans of each row, to
which the row has added colors. -/
structure LaidOut (s : Scene) (rows : List GridRow) (b : Buffer)
    (laid : List (List Span × List Span)) (p : Painted) (c : Buffer) : Prop where
  text : c.text = b.text ++ p.text
  spans : c.spans = b.spans ++ laid.flatMap fun (spans, own) => spans ++ own
  marks : paint (laid.flatMap Prod.fst) b.size p.text = p
  within : ∀ a ∈ laid.flatMap Prod.fst, b.size ≤ a.start ∧ a.stop ≤ c.size
  colors : List.Forall₂ (fun row (_, own) => RowColors s row own) rows laid

namespace LaidOut
variable {s : Scene} {row : GridRow} {rows : List GridRow} {b' c : Buffer} {p q : Painted}
  {laid : List (List Span × List Span)} {S own : List Span}

theorem nil (s : Scene) (b : Buffer) : LaidOut s [] b [] [] b :=
  ⟨(List.append_nil _).symm, (List.append_nil _).symm, rfl, (fun _ ha => by cases ha), .nil⟩

/-- A row is written and colored, and then the others. -/
theorem cons (hS : b.Paints S p b') {d : Buffer} (htext : d.text = b'.text)
    (hspans : d.spans = b'.spans ++ own) (hown : RowColors s row own)
    (h : LaidOut s rows d laid q c) :
    LaidOut s (row :: rows) b ((S, own) :: laid) (p ++ q) c := by
  have hd : d.size = b.size + p.text.size := (congrArg Text.size htext).trans hS.size
  have hc : c.size = d.size + q.text.size := (congrArg Text.size h.text).trans (size_append ..)
  have hbefore : ∀ a ∈ S, a.stop ≤ d.size := fun a ha => by
    have := (hS.within a ha).2
    rwa [hS.size, ← hd] at this
  refine ⟨?_, ?_, ?_, fun a ha => ?_, .cons hown h.colors⟩
  · rw [h.text, htext, hS.text, Painted.text_append, List.append_assoc]
  · rw [h.spans, hspans, hS.spans, List.flatMap_cons]
    simp only [List.append_assoc]
  · rw [Painted.text_append]
    exact paint_append_append hS.paint h.marks hd.symm hbefore fun a ha => (h.within a ha).1
  · rcases List.mem_append.1 ha with ha | ha
    · have := (hS.within a ha).1
      have := hbefore a ha
      omega
    · have := h.within a ha
      omega

/-- Text without marks follows. -/
theorem push (h : LaidOut s rows b laid p c) (t : Text) :
    LaidOut s rows b laid (p ++ Painted.plain t) (c.push t) := by
  have hc : c.size = b.size + p.text.size := (congrArg Text.size h.text).trans (size_append ..)
  refine ⟨?_, h.spans, ?_, fun a ha => ?_, h.colors⟩
  · rw [Buffer.text_push, h.text, Painted.text_append, Painted.text_plain, List.append_assoc]
  · have hplain := paint_append_append h.marks (paint_nil c.size t) hc.symm
      (fun a ha => (h.within a ha).2) (T := []) (fun _ ha => by cases ha)
    rwa [List.append_nil, ← Painted.text_plain t, ← Painted.text_append,
      Painted.text_plain t] at hplain
  · rw [Buffer.size_push]
    have := h.within a ha
    omega

end LaidOut

theorem paints_putRow (s : Scene) (indentation : Nat) (widths : List Nat) (row : GridRow)
    (cells : List CellText) (r : Renderer) :
    ∃ S own b', r.buffer.Paints S (Painted.plain (gridRuler indentation widths ++ ['\n']) ++
        paintedRow indentation (cells.zip widths)) b' ∧ RowColors s row own ∧
      let d := (putRow s indentation widths r (row, cells.zipWith CellText.cell widths)).buffer
      d.text = b'.text ∧ d.spans = b'.spans ++ own := by
  have hpage := page_pushRow s row.row
    (r.onBuffer (·.push (gridRuler indentation widths ++ ['\n'])))
  have hpushed := pushed_pushRow s row.row
    (r.onBuffer (·.push (gridRuler indentation widths ++ ['\n'])))
  obtain ⟨S, hS⟩ := paints_writeRow (r.buffer.push (gridRuler indentation widths ++ ['\n']))
    indentation widths cells
  have hwritten := (Buffer.Paints.push r.buffer _).trans hS
  unfold putRow
  generalize pushRow s row.row _ = pushed at hpage hpushed
  obtain ⟨pushed, q⟩ := pushed
  dsimp only at hpushed ⊢
  have hbuffer : (q.onBuffer (writeRow indentation widths
      (cells.zipWith CellText.cell widths))).buffer = writeRow indentation widths
        (cells.zipWith CellText.cell widths)
          (r.buffer.push (gridRuler indentation widths ++ ['\n'])) :=
    congrArg (fun p : Page => writeRow indentation widths _ p.buffer) hpage
  generalize q.onBuffer _ = q' at hbuffer ⊢
  split
  · have hpop := (congrArg Page.buffer (page_popRow pushed q')).trans hbuffer
    obtain ⟨htext, own, hspans, hown⟩ :=
      colorize_spans (popRow pushed q').buffer q.buffer.size q'.styles.resolve
    refine ⟨_, own, _, hwritten, ⟨hown, fun hempty => ?_⟩,
      htext.trans (congrArg Buffer.text hpop), hspans.trans (congrArg (·.spans ++ own) hpop)⟩
    rename_i htrue
    rw [htrue, hempty] at hpushed
    cases hpushed
  · exact ⟨_, [], _, hwritten, ⟨nofun, fun _ => rfl⟩, congrArg Buffer.text hbuffer,
      (congrArg Buffer.spans hbuffer).trans (List.append_nil _).symm⟩

theorem laid_rows (s : Scene) (indentation : Nat) (widths : List Nat)
    (rows : List (GridRow × List CellText)) (r : Renderer) :
    ∃ laid, LaidOut s (rows.map Prod.fst) r.buffer laid
      (rows.flatMap fun (_, cells) => Painted.plain (gridRuler indentation widths ++ ['\n']) ++
        paintedRow indentation (cells.zip widths))
      ((rows.map fun (row, cells) => (row, cells.zipWith CellText.cell widths)).foldl
        (putRow s indentation widths) r).buffer := by
  induction rows generalizing r with
  | nil => exact ⟨[], .nil s r.buffer⟩
  | cons row rows ih =>
    obtain ⟨S, own, b', hS, hown, htext, hspans⟩ :=
      paints_putRow s indentation widths row.1 row.2 r
    obtain ⟨laid, hlaid⟩ := ih (putRow s indentation widths r
      (row.1, row.2.zipWith CellText.cell widths))
    exact ⟨_, .cons hS htext hspans hown hlaid⟩

/-! ### Heights -/

theorem newline_notMem_line (c : CellText) (width i : Nat) :
    '\n' ∉ (c.line width i).text := by
  have hblanks (n : Nat) : '\n' ∉ (c.blanks n).text := by
    simp [Painted.text, CellText.blanks]
  unfold CellText.line
  split
  · rename_i p hp
    have hrow : p.text ∈ c.text.rows := by
      have hmem := List.mem_of_getElem? hp
      unfold CellText.rows at hmem
      split at hmem
      · cases hmem
      · rw [rows_paint] at hmem
        rw [← map_text_paintRows c.spans 0 c.text.rows]
        exact List.mem_map_of_mem hmem
    rw [CellText.padded, Painted.text_append, List.mem_append, not_or]
    exact ⟨newline_notMem_of_mem_rows hrow, hblanks _⟩
  · exact hblanks width

theorem count_paintedRow (indentation : Nat) (places : List (CellText × Nat)) :
    (paintedRow indentation places).text.count '\n' = rowHeight places := by
  have hline (i : Nat) : (paintedLine indentation places i).text.count '\n' = 1 := by
    have hcells : '\n' ∉ Painted.text
        (places.flatMap fun (c, w) => c.line w i ++ Painted.plain ['|']) := by
      simp only [Painted.text, List.map_flatMap, List.mem_flatMap, not_exists, not_and]
      rintro ⟨c, w⟩ - hc
      rw [List.map_append, List.mem_append] at hc
      rcases hc with hc | hc
      · exact newline_notMem_line c w i hc
      · simp [Painted.plain] at hc
    unfold paintedLine
    rw [Painted.text_append, Painted.text_append, List.count_append, List.count_append,
      List.count_eq_zero.2 hcells]
    simp [spaces, List.count_replicate]
  have hlines (lines : List Nat) :
      (Painted.text (lines.flatMap (paintedLine indentation places))).count '\n' =
        lines.length := by
    induction lines with
    | nil => rfl
    | cons i lines ih =>
      rw [List.flatMap_cons, Painted.text_append, List.count_append, hline, ih,
        List.length_cons, Nat.add_comm]
  rw [paintedRow, hlines, List.length_range]

end Renderer

open Renderer

/-- Every row takes as many lines as its highest cell; in each column the lines of the cell stand in
order above blanks, with the marks over each character that it has in the text of the cell; and
nothing else is marked, apart from the colors that rows with colors of their own add. -/
theorem writeGrid_intact (s : Scene) (widths : List Nat) (rows : List (GridRow × List CellText))
    (r : Renderer) :
    (∃ laid, LaidOut s (rows.map Prod.fst) r.buffer laid
      (paintedGrid r.layout.indentation widths (rows.map Prod.snd))
      (writeGrid s widths (rows.map fun (row, cells) =>
        (row, cells.zipWith CellText.cell widths)) r).buffer) ∧
    ∀ row ∈ rows, let places := row.2.zip widths
      (paintedRow r.layout.indentation places).text.count '\n' = rowHeight places ∧
        ∀ place ∈ places, (List.range (rowHeight places)).map (place.1.line place.2) =
          place.1.rows.map (place.1.padded place.2) ++
            List.replicate (rowHeight places - place.1.rows.length)
              (place.1.blanks place.2) := by
  constructor
  · obtain ⟨laid, hlaid⟩ := laid_rows s r.layout.indentation widths rows r
    refine ⟨laid, ?_⟩
    rw [writeGrid_eq, paintedGrid, List.flatMap_map]
    exact hlaid.push _
  · intro row _
    exact ⟨count_paintedRow _ _, fun place hplace => map_line_range hplace⟩

end MarkupText
