import MarkupText.Proofs.Flow.Finished
import MarkupText.Proofs.Flow.Folds
import MarkupText.Proofs.Render.Frames

/-!
# Lines that stand alone

Rulers and the lines of grids are written at the indentation in force, on lines of their own
(`standing_renderWith`): a new line is started for them, and nothing written later changes it. The
exception is a list label that was just written. It counts as a fresh line, so the first line is
written behind it, and the indentation with it (`shifted_tableInItem`).
-/

namespace MarkupText

open Text

namespace Text
variable {t : Text}

/-- The lines stand in the text one after the other, the first of them behind `lead`. -/
def Shows (t lead : Text) (ls : List Text) : Prop :=
  (∀ l ∈ lead :: ls, '\n' ∉ l) ∧
    ∃ upper lower, upper.Finished ∧ t = upper ++ (lead ++ ended ls) ++ lower

end Text

namespace Buffer
variable {b : Buffer}

/-- What stands on the line behind which a new line is asked for: nothing, or a list label that was
just written. -/
def Leads (b : Buffer) (lead : Text) : Prop :=
  lead = [] ∨ b.atLabelEnd = true ∧ lead = b.currentLine

theorem text_ensureNewline (b : Buffer) : ∃ upper lead, b.ensureNewline.text = upper ++ lead ∧
    upper.Finished ∧ b.Leads lead ∧ '\n' ∉ lead := by
  obtain ⟨upper, htext, hupper⟩ := b.ensureNewline.text_eq_upper
  refine ⟨upper, _, htext, hupper, ?_, newline_notMem_lastRow _⟩
  rcases b.ensureNewline_cases with ⟨hend, heq⟩ | hnil
  · exact .inr ⟨hend, by rw [heq]⟩
  · exact .inl hnil

theorem text_endRegion (b : Buffer) (mark : Mark) : (b.endRegion mark).text = b.text :=
  (text_markVisible ..).trans (text_closeRegion b)

theorem text_colorize (b : Buffer) (start : Nat) (colors : ColorPair) :
    (b.colorize start colors).text = b.text :=
  colorize_induct (P := fun c => c.text = b.text) colors
    (fun _ _ _ hc => (text_markVisible ..).trans hc) rfl start

theorem text_endColors (b : Buffer) (colors : ColorPair) : (b.endColors colors).text = b.text :=
  (text_colorize ..).trans (text_closeRegion b)

/-! ### Finished texts -/

/-- Lines at the start of a text that do not end with a blank are kept when it is finished. -/
theorem prefix_finish {t : Text} {c : Char} (h : t ++ [c, '\n'] <+: b.text)
    (hc : isBlank c = false) : t ++ [c, '\n'] <+: b.finish.1 ++ ['\n'] := by
  obtain ⟨u, hu, hblank⟩ := dropEndWhile_append isBlank b.text
  change b.text = b.finish.1 ++ u at hu
  have hfront : t ++ [c] <+: b.finish.1 := by
    have hall : t ++ [c] <+: b.finish.1 ++ u :=
      hu ▸ List.IsPrefix.trans ⟨['\n'], by simp⟩ h
    rcases List.prefix_or_prefix_of_prefix hall (List.prefix_append b.finish.1 u) with hle | ⟨x, hx⟩
    · exact hle
    · rw [← hx] at hall
      have hxu : x <+: u := (List.prefix_append_right_inj _).1 hall
      have hlast := congrArg List.getLast? hx
      rw [List.getLast?_append, List.getLast?_concat] at hlast
      cases hd : x.getLast? with
      | none =>
        rw [List.getLast?_eq_none_iff.1 hd, List.append_nil] at hx
        exact ⟨[], by rw [List.append_nil, hx]⟩
      | some d =>
        rw [hd] at hlast
        obtain rfl := Option.some.inj hlast
        rw [hblank d (hxu.subset (List.mem_of_getLast? hd))] at hc
        cases hc
  obtain ⟨w, hw⟩ := hfront
  obtain ⟨rest, hrest⟩ := h
  have hnext : w ++ u = '\n' :: rest := by
    rw [hu, ← hw] at hrest
    simpa using hrest.symm
  rw [← hw]
  cases w with
  | nil => simp
  | cons d w =>
    obtain ⟨rfl, -⟩ := List.cons.inj hnext
    exact ⟨w ++ ['\n'], by simp⟩

end Buffer

/-- Each line of the cell is one line. -/
def Cell.Lined (c : Cell) : Prop := ∀ l ∈ c.lines, '\n' ∉ l.text

/-! ### What is written -/

namespace Renderer
variable {s : Scene} {r : Renderer} {i : Nat} {widths : List Nat} {cells : List Cell}

/-- The line of a ruler. -/
def rulerLine (l : Layout) : Text :=
  spaces l.indentation ++ List.replicate (max (l.width - l.indentation) 1) '-'

theorem width_rulerLine (l : Layout) : (rulerLine l).width = max l.width (l.indentation + 1) := by
  have hascii : ∀ c ∈ rulerLine l, Ascii c := by
    intro c hc
    rcases List.mem_append.1 hc with hc | hc
    · exact ascii_of_mem_spaces hc
    · rw [List.eq_of_mem_replicate hc]
      decide
  have hline : '\n' ∉ rulerLine l := by
    intro hc
    rcases List.mem_append.1 hc with hc | hc
    · exact newline_notMem_spaces _ hc
    · cases List.eq_of_mem_replicate hc
  rw [width_of_ascii hascii hline]
  simp only [rulerLine, spaces, List.length_append, List.length_replicate]
  omega

/-- The lines of one row of a grid. -/
def rowLines (i : Nat) (widths : List Nat) (cells : List Cell) : List Text :=
  (List.range (max 1 ((cells.map (·.lines.length)).foldl max 0))).map fun k =>
    spaces i ++ '|' :: rowBody k (cells.zip widths)

/-- The lines of a grid. -/
def gridLines (i : Nat) (widths : List Nat) (rows : List (List Cell)) : List Text :=
  rows.flatMap (fun cells => gridRuler i widths :: rowLines i widths cells) ++ [gridRuler i widths]

theorem ended_append (ls ms : List Text) : ended (ls ++ ms) = ended ls ++ ended ms := by
  simp [ended]

theorem text_writeRow (i : Nat) (widths : List Nat) (cells : List Cell) (b : Buffer) :
    (writeRow i widths cells b).text = b.text ++ ended (rowLines i widths cells) := by
  unfold writeRow rowLines
  dsimp only
  generalize List.range _ = ks
  induction ks generalizing b with
  | nil => exact (List.append_nil _).symm
  | cons k ks ih =>
    refine (ih _).trans ?_
    rw [text_writeRowLine]
    simp [ended]

theorem text_putRow (i : Nat) (widths : List Nat) (row : GridRow × List Cell) (r : Renderer) :
    (putRow s i widths r row).buffer.text =
      r.buffer.text ++ ended (gridRuler i widths :: rowLines i widths row.2) := by
  have hpage := page_pushRow s row.1.row
    (r.onBuffer (·.push (gridRuler i widths ++ ['\n'])))
  unfold putRow
  generalize pushRow s row.1.row _ = pushed at hpage
  obtain ⟨pushed, q⟩ := pushed
  have hq : q.buffer.text = r.buffer.text ++ (gridRuler i widths ++ ['\n']) :=
    congrArg (fun p : Page => p.buffer.text) hpage
  have hrow : (q.onBuffer (writeRow i widths row.2)).buffer.text =
      r.buffer.text ++ ended (gridRuler i widths :: rowLines i widths row.2) := by
    refine (text_writeRow i widths row.2 q.buffer).trans ?_
    rw [hq]
    simp [ended]
  dsimp only
  split
  · refine (Buffer.text_colorize ..).trans ?_
    exact (congrArg (fun p : Page => p.buffer.text) (page_popRow pushed _)).trans hrow
  · exact hrow

theorem text_writeGrid (widths : List Nat) (rows : List (GridRow × List Cell)) (r : Renderer) :
    (writeGrid s widths rows r).buffer.text = r.buffer.text ++
      ended (gridLines r.layout.indentation widths (rows.map Prod.snd)) := by
  have hrows (i : Nat) (r : Renderer) : (rows.foldl (putRow s i widths) r).buffer.text =
      r.buffer.text ++ ended ((rows.map Prod.snd).flatMap fun cells =>
        gridRuler i widths :: rowLines i widths cells) := by
    induction rows generalizing r with
    | nil => exact (List.append_nil _).symm
    | cons row rows ih =>
      refine (ih _).trans ?_
      rw [text_putRow, List.append_assoc, ← ended_append]
      rfl
  rw [writeGrid_eq, gridLines, ended_append, ← List.append_assoc, ← hrows]
  simp [ended, onBuffer, onPage, buffer, Page.onBuffer]

theorem text_putRuler (b : Buffer) (l : Layout) :
    (b.putRuler l.indentation (max (l.width - l.indentation) 1)).text =
      b.ensureNewline.text ++ ended [rulerLine l] := by
  obtain ⟨n, hn⟩ : ∃ n, max (l.width - l.indentation) 1 = n + 1 :=
    ⟨max (l.width - l.indentation) 1 - 1, by omega⟩
  unfold Buffer.putRuler Buffer.newline rulerLine
  dsimp only
  rw [hn, Buffer.text_push, Buffer.text_trimSpaces, Buffer.text_annotate, Buffer.text_push,
    Buffer.text_push, List.replicate_succ', ← List.append_assoc, dropEndWhile_eq,
    List.rdropWhile_concat_neg _ _ _ (by decide)]
  simp [ended]

theorem lined_ofText (t : Text) (spans : List Span) (width : Nat) (fill : Bool)
    (background : Option Color) : (Cell.ofText t spans width fill background).Lined := by
  refine Cell.forall_mem_ofText (fun l hl => ?_) fun l hl => ?_
  · obtain ⟨row, hrow, n, rfl⟩ := Cell.eq_of_mem_cutLines hl
    exact newline_notMem_of_mem_rows hrow
  · rw [Cell.text_pad]
    exact fun hc => (List.mem_append.1 hc).elim hl (newline_notMem_spaces _)

theorem newline_notMem_gridRuler (i : Nat) (widths : List Nat) : '\n' ∉ gridRuler i widths := by
  intro hc
  rcases List.mem_append.1 hc with hc | hc
  · exact newline_notMem_spaces i hc
  · rcases List.mem_cons.1 hc with hc | hc
    · cases hc
    · obtain ⟨w, -, hc⟩ := List.mem_flatMap.1 hc
      rcases List.mem_append.1 hc with hc | hc
      · cases List.eq_of_mem_replicate hc
      · cases List.mem_singleton.1 hc

theorem gridLines_concat (i : Nat) (widths : List Nat) (rows : List (List Cell)) :
    ∃ ms m, gridLines i widths rows = ms ++ [m ++ ['+']] := by
  obtain ⟨m, hm⟩ : ∃ m, gridRuler i widths = m ++ ['+'] := by
    rcases widths.eq_nil_or_concat with rfl | ⟨ws, w, rfl⟩
    · exact ⟨spaces i, rfl⟩
    · refine ⟨gridRuler i ws ++ List.replicate w '-', ?_⟩
      unfold gridRuler
      simp
  unfold gridLines
  exact ⟨_, m, by rw [hm]⟩

theorem newline_notMem_gridLines {rows : List (List Cell)}
    (h : ∀ cells ∈ rows, ∀ c ∈ cells, c.Lined) (i : Nat) (widths : List Nat) :
    ∀ l ∈ gridLines i widths rows, '\n' ∉ l := by
  have hbody {cells : List Cell} (hcells : ∀ c ∈ cells, c.Lined) (k : Nat) :
      '\n' ∉ rowBody k (cells.zip widths) := by
    intro hc
    obtain ⟨⟨c, w⟩, hmem, hc⟩ := List.mem_flatMap.1 hc
    rcases List.mem_append.1 hc with hc | hc
    · unfold cellLine at hc
      split at hc
      · rename_i l hl
        exact hcells c (List.of_mem_zip hmem).1 l (List.mem_of_getElem? hl) hc
      · exact newline_notMem_spaces _ hc
    · cases List.mem_singleton.1 hc
  intro l hl
  rcases List.mem_append.1 hl with hl | hl
  · obtain ⟨cells, hcells, hl⟩ := List.mem_flatMap.1 hl
    rcases List.mem_cons.1 hl with rfl | hl
    · exact newline_notMem_gridRuler i widths
    · obtain ⟨k, -, rfl⟩ := List.mem_map.1 hl
      intro hc
      rcases List.mem_append.1 hc with hc | hc
      · exact newline_notMem_spaces i hc
      · rcases List.mem_cons.1 hc with hc | hc
        · cases hc
        · exact hbody (h cells hcells) k hc
  · rw [List.mem_singleton.1 hl]
    exact newline_notMem_gridRuler i widths

/-! ### What is kept -/

theorem text_finish_of_ne_nil (h : r.buffer.finish.1 ≠ []) :
    r.finish.text = r.buffer.finish.1 ++ ['\n'] := by
  unfold finish
  dsimp only
  rw [if_neg (mt List.isEmpty_iff.1 h)]

theorem continues_image (s : Scene) (e : Element) (r : Renderer) :
    Continues r.buffer.text (image s e r).buffer.text := by
  rw [image_eq]
  cases fetchableSource? s e with
  | none => exact r.page.continues_insert _ _
  | some source =>
    dsimp only
    split
    · exact .refl _
    · have hinsert := (r.page.onBuffer (·.openRegion)).continues_insert s.options.rules
        (placeholder (altText e))
      generalize Page.insert _ _ _ = q at hinsert ⊢
      have hclosed : Continues r.buffer.text q.buffer.closeRegion.2.text := by
        rw [Buffer.text_closeRegion]
        exact hinsert
      unfold requestImage
      split
      · exact hclosed
      · exact hclosed.trans (Buffer.text_annotate .. ▸ .refl _)

/-- Finished lines are kept. -/
theorem invariant_continues (s : Scene) (t : Text) :
    Invariant s (fun b p => b = false → t.Continues p.buffer.text) Cell.CutFor where
  layout _ _ _ h := h
  ensureNewline h hb := (h hb).trans (Buffer.continues_ensureNewline _)
  ensureParagraph h hb := (h hb).trans (Buffer.continues_ensureParagraph _)
  openRegion h := h
  endRegion mark _ h hb := (Buffer.text_endRegion _ mark).symm ▸ h hb
  endColors colors h hb := (Buffer.text_endColors _ colors).symm ▸ h hb
  insert t h hb := (h hb).trans (Page.continues_insert _ _ t)
  lineBreak h hb := (h hb).trans (Buffer.continues_newline _)
  ruler {b r} h hb := by
    have hput := text_putRuler r.buffer r.layout
    refine (h hb).trans ((Buffer.continues_ensureNewline _).trans ?_)
    rw [ruler_eq]
    exact hput ▸ .append _ _
  labelled {b r} h hb :=
    (h hb).trans ((Buffer.continues_ensureNewline _).trans
      ((Page.continues_indent (r.page.onBuffer (·.ensureNewline))).trans (.append _ _)))
  image e h hb := (h hb).trans (continues_image s e _)
  cell _ _ hb := by cases hb
  cut _ _ _ := ⟨_, _, _, rfl⟩
  grid widths rows _ h hb := (h hb).trans (text_writeGrid .. ▸ .append _ _)

theorem text_putGrid {visit : NodeId → Renderer → Renderer} (g : Grid) (r : Renderer)
    (hrows : g.rows.length = (negotiate s visit g r).2.1.length) :
    (putGrid s visit g r).buffer.text = r.buffer.text ++ ended (gridLines r.layout.indentation
      (negotiate s visit g r).1 (negotiate s visit g r).2.1) := by
  have hpage := @page_negotiate s visit g r
  unfold putGrid
  generalize negotiate s visit g r = out at hrows hpage
  obtain ⟨widths, rows, q⟩ := out
  dsimp only at hpage hrows ⊢
  refine (text_writeGrid widths (g.rows.zip rows) q).trans ?_
  rw [List.map_snd_zip (Nat.le_of_eq hrows.symm), buffer, layout, hpage]
  rfl

end Renderer

open Renderer

namespace Visit
variable {s : Scene} {u v : Visit} {e : Element} {c : Content} {lead upper t : Text}
  {ls : List Text}

theorem leads_entered (e : Element) (h : (v.start.openColors e).buffer.Leads lead) :
    v.start.buffer.Leads lead := by
  unfold Renderer.openColors at h
  split at h <;> exact h

theorem cutFor_filled (huv : Reaches s u v) (hcache : u.start.cache.Keeps Cell.CutFor)
    (c : Content) : (v.filled s c).cache.Keeps Cell.CutFor :=
  have hK := (invariant_cutFor s).upkeep false
  (keep_filled hK (huv.keep hK ⟨trivial, hcache⟩) c).cache

/-- Lines that are finished when a visit has closed what it opened are still there after the visits
around it, and in the finished text. -/
theorem prefix_closed (huv : Reaches s u v) (h : v.Enters s c)
    (hcache : u.start.cache.Keeps Cell.CutFor)
    (hlast : ∃ l d, (v.closed s c).buffer.text = l ++ [d, '\n'] ∧ isBlank d = false)
    (ht : (u.result s).buffer.finish.1 ≠ [] → t = (u.result s).buffer.finish.1 ++ ['\n']) :
    (v.closed s c).buffer.text <+: t := by
  obtain ⟨l, d, htext, hd⟩ := hlast
  have hcut := (invariant_cutFor s).upkeep false
  have hclosed : (v.closed s c).cache.Keeps Cell.CutFor :=
    (keep_closed hcut ⟨trivial, cutFor_filled huv hcache c⟩).cache
  have hK := (invariant_continues s (v.closed s c).buffer.text).upkeep false
  have hresult := huv.later hK (keep_result hK h ⟨fun _ => .refl _, hclosed⟩)
  have hprefix := (hresult.page rfl).prefix_right (by rw [htext]; exact .inr (by simp))
  rw [htext] at hprefix ⊢
  have hfinish : l ++ [d, '\n'] <+: (u.result s).buffer.finish.1 ++ ['\n'] :=
    Buffer.prefix_finish hprefix hd
  have hne : (u.result s).buffer.finish.1 ≠ [] := by
    intro hnil
    have hlength := hfinish.length_le
    rw [hnil] at hlength
    simp at hlength
  rwa [← ht hne] at hfinish

theorem shows_of_prefix (hfront : upper ++ (lead ++ ended ls) <+: t) (hupper : upper.Finished)
    (hlead : '\n' ∉ lead) (hls : ∀ l ∈ ls, '\n' ∉ l) : t.Shows lead ls := by
  obtain ⟨lower, hlower⟩ := hfront
  exact ⟨List.forall_mem_cons.2 ⟨hlead, hls⟩, upper, lower, hupper, hlower.symm⟩

/-- The widths and the cells of the grid that a visit writes. -/
def grid (s : Scene) (v : Visit) (e : Element) : List Nat × List (List Cell) :=
  let out := negotiate s (v.below s) (Grid.collect s.tree v.id).1
    ((v.filled s (.element e)).onBuffer (·.ensureNewline))
  (out.1, out.2.1)

/-- The lines of a ruler or a grid that a visit writes stand in a text. -/
structure Stands (s : Scene) (v : Visit) (e : Element) (t : Text) : Prop where
  ruler : e.tag = .hr → ∃ lead, v.start.buffer.Leads lead ∧ t.Shows lead [rulerLine v.start.layout]
  grid : e.tag = .table → ∃ lead, (v.filled s (.element e)).buffer.Leads lead ∧
    t.Shows lead (gridLines v.start.layout.indentation (v.grid s e).1 (v.grid s e).2)

theorem shows_ruler (huv : Reaches s u v) (h : v.Enters s (.element e)) (htag : e.tag = .hr)
    (hcache : u.start.cache.Keeps Cell.CutFor)
    (ht : (u.result s).buffer.finish.1 ≠ [] → t = (u.result s).buffer.finish.1 ++ ['\n']) :
    ∃ lead, v.start.buffer.Leads lead ∧ t.Shows lead [rulerLine v.start.layout] := by
  have hrole : e.tag.role = .ruler := by rw [htag]; rfl
  let r : Renderer :=
    { v.start with visited := v.id :: v.start.visited, path := v.id :: v.start.path }
  have hclosed : v.closed s (.element e) = Renderer.ruler (openColors e r) := by
    unfold Visit.closed Visit.filled Visit.opened closing shown opening closeRule shownBy openRule
    simp only [hrole]
    rfl
  have hlayout : (openColors e r).layout = v.start.layout := layout_openColors e r
  obtain ⟨upper, lead, htext, hupper, hlead, hline⟩ := (openColors e r).buffer.text_ensureNewline
  refine ⟨lead, leads_entered (v := ⟨v.levels, v.id, r⟩) e hlead, ?_⟩
  have hruler : (v.closed s (.element e)).buffer.text =
      upper ++ (lead ++ ended [rulerLine v.start.layout]) := by
    rw [hclosed, ruler_eq, ← hlayout, ← List.append_assoc, ← htext]
    exact text_putRuler _ _
  obtain ⟨n, hn⟩ : ∃ n, max (v.start.layout.width - v.start.layout.indentation) 1 = n + 1 :=
    ⟨max (v.start.layout.width - v.start.layout.indentation) 1 - 1, by omega⟩
  have hlast : ended [rulerLine v.start.layout] =
      spaces v.start.layout.indentation ++ List.replicate n '-' ++ ['-', '\n'] := by
    rw [rulerLine, hn, List.replicate_succ']
    simp [ended]
  have hprefix := prefix_closed huv h hcache
    ⟨upper ++ lead ++ (spaces v.start.layout.indentation ++ List.replicate n '-'), '-',
      by rw [hruler, hlast]; simp, by decide⟩ ht
  rw [hruler] at hprefix
  refine shows_of_prefix hprefix hupper hline fun l hl hc => ?_
  rw [List.mem_singleton.1 hl] at hc
  rcases List.mem_append.1 hc with hc | hc
  · exact newline_notMem_spaces _ hc
  · cases List.eq_of_mem_replicate hc

theorem closed_table (htag : e.tag = .table) : v.closed s (.element e) =
    putGrid s (v.below s) (Grid.collect s.tree v.id).1
      ((v.filled s (.element e)).onBuffer (·.ensureNewline)) := by
  have hrole : e.tag.role = .table := by rw [htag]; rfl
  unfold Visit.closed closing closeRule
  simp only [hrole]

/-- A grid is written behind what stands on its line, which is nothing or a label. -/
theorem exists_closed_grid (huv : Reaches s u v) (htag : e.tag = .table)
    (hcache : u.start.cache.Keeps Cell.CutFor) : ∃ upper lead,
      (v.filled s (.element e)).buffer.ensureNewline.text = upper ++ lead ∧
      upper.Finished ∧ (v.filled s (.element e)).buffer.Leads lead ∧ '\n' ∉ lead ∧
      (∀ l ∈ gridLines v.start.layout.indentation (v.grid s e).1 (v.grid s e).2, '\n' ∉ l) ∧
      (v.closed s (.element e)).buffer.text = upper ++ (lead ++
        ended (gridLines v.start.layout.indentation (v.grid s e).1 (v.grid s e).2)) := by
  have hrole : e.tag.role = .table := by rw [htag]; rfl
  have hopened : (v.opened s (.element e)).layout = v.start.layout :=
    (layout_openRule_table hrole _).trans (layout_openColors e _)
  have hbase := (base_filled s v (.element e)).trans (congrArg Layout.base hopened)
  have hindentation := congrArg (fun l : Layout => l.indentation) hbase
  have hkeeps := cutFor_filled huv hcache (.element e)
  obtain ⟨upper, lead, htext, hupper, hlead, hline⟩ :=
    (v.filled s (.element e)).buffer.text_ensureNewline
  refine ⟨upper, lead, htext, hupper, hlead, hline, ?_⟩
  rw [closed_table htag]
  unfold Visit.grid
  change (Renderer.onBuffer (·.ensureNewline) _).layout.indentation = _ at hindentation
  change (Renderer.onBuffer (·.ensureNewline) _).cache.Keeps Cell.CutFor at hkeeps
  change (Renderer.onBuffer (·.ensureNewline) _).buffer.text = _ at htext
  generalize Renderer.onBuffer _ _ = q at hindentation hkeeps htext ⊢
  dsimp only
  have hI := invariant_cutFor s
  have hbelow : ∀ id, Good.Step _ _ (v.below s id) := hI.node (v.levels - 1)
  have hdrawn := (hI.drawn_negotiate hbelow (Grid.collect s.tree v.id).1 q hkeeps).drawn
  have hput := text_putGrid (Grid.collect s.tree v.id).1 q hdrawn.length_eq
  rw [htext, hindentation, List.append_assoc] at hput
  refine ⟨newline_notMem_gridLines ?_ _ _, hput⟩
  generalize negotiate s (v.below s) (Grid.collect s.tree v.id).1 q = out at hdrawn ⊢
  intro cells hmem c hc
  obtain ⟨i, hi, rfl⟩ := List.getElem_of_mem hmem
  obtain ⟨key, t, spans, background, rfl⟩ :=
    (hdrawn.get (hdrawn.length_eq ▸ hi) hi).exists_key hc
  exact lined_ofText t spans key.width key.fill background

theorem prefix_closed_grid (huv : Reaches s u v) (h : v.Enters s (.element e))
    (htag : e.tag = .table) (hcache : u.start.cache.Keeps Cell.CutFor)
    (ht : (u.result s).buffer.finish.1 ≠ [] → t = (u.result s).buffer.finish.1 ++ ['\n']) :
    (v.closed s (.element e)).buffer.text <+: t := by
  obtain ⟨upper, lead, -, -, -, -, -, htext⟩ := exists_closed_grid huv htag hcache
  obtain ⟨ms, m, hlast⟩ := gridLines_concat v.start.layout.indentation (v.grid s e).1 (v.grid s e).2
  refine prefix_closed huv h hcache
    ⟨upper ++ lead ++ ended ms ++ m, '+', ?_, by decide⟩ ht
  rw [htext, hlast]
  simp [ended]

theorem shows_grid (huv : Reaches s u v) (h : v.Enters s (.element e)) (htag : e.tag = .table)
    (hcache : u.start.cache.Keeps Cell.CutFor)
    (ht : (u.result s).buffer.finish.1 ≠ [] → t = (u.result s).buffer.finish.1 ++ ['\n']) :
    ∃ lead, (v.filled s (.element e)).buffer.Leads lead ∧
      t.Shows lead (gridLines v.start.layout.indentation (v.grid s e).1 (v.grid s e).2) := by
  obtain ⟨upper, lead, -, hupper, hlead, hline, hls, htext⟩ := exists_closed_grid huv htag hcache
  have hprefix := prefix_closed_grid huv h htag hcache ht
  rw [htext] at hprefix
  exact ⟨lead, hlead, shows_of_prefix hprefix hupper hline hls⟩

/-- The visit of the first node that another one shows. -/
def first (s : Scene) (v : Visit) (c : Content) (x : NodeId) : Visit :=
  ⟨v.levels - 1, x, v.opened s c⟩

theorem Enters.calls_first {x : NodeId} {after : List NodeId} (h : v.Enters s c)
    (hids : Renderer.shown s v.id c = x :: after) : Calls s v (v.first s c x) :=
  @Calls.shown s v c [] after x h hids

theorem stands (huv : Reaches s u v) (h : v.Enters s (.element e))
    (hcache : u.start.cache.Keeps Cell.CutFor)
    (ht : (u.result s).buffer.finish.1 ≠ [] → t = (u.result s).buffer.finish.1 ++ ['\n']) :
    v.Stands s e t :=
  ⟨fun htag => shows_ruler huv h htag hcache ht, fun htag => shows_grid huv h htag hcache ht⟩

end Visit

open Visit

/-- Rulers and the lines of grids are written at the indentation in force and stand on lines of
their own, on the page and in every cell, but for a list label in front of the first of them. So it is
with whatever cells were kept before, and with every cell that a render meets. -/
theorem standing_renderWith (s : Scene) (id : NodeId) (cache : CellCache) :
    (∀ l : Layout, (rulerLine l).width = max l.width (l.indentation + 1)) ∧
    (∀ v e, Reaches s ⟨Tree.maxDepth, id, start s cache.clear⟩ v → v.Enters s (.element e) →
      v.Stands s e (renderWith s id cache).rendered.text) ∧
    (∀ v w, Meets s ⟨Tree.maxDepth, id, start s cache.clear⟩ v → CallsCell s v w →
      ∃ cell width r, Kept s r.cache ∧
        w = ⟨v.levels - 1, cell, cellStart s (some cell) width r⟩) ∧
    ∀ r levels cell width fill, Kept s r.cache →
      ∃ t spans background, (freshCell s (node s levels) (some cell) width fill r).1 =
        Cell.ofText t spans width fill background ∧
        ∀ v e, Reaches s ⟨levels, cell, cellStart s (some cell) width r⟩ v →
          v.Enters s (.element e) → v.Stands s e (t ++ ['\n']) := by
  refine ⟨width_rulerLine, fun v e huv h => ?_,
    fun v w hv hw => hw.exists_start (hv.kept (.clear cache)),
    fun r levels cell width fill hr => ?_⟩
  · exact stands huv h (fun _ he => by cases he) text_finish_of_ne_nil
  · rw [freshCell_eq]
    exact ⟨_, _, _, rfl, fun v e huv h => stands huv h hr.keeps fun _ => rfl⟩

/-- A table of one row inside some elements. -/
def tableIn (names : List String) (row : List Item) : Tree :=
  let table : Item := .element "table".toList [] row
  (Loaded.ofItems [names.foldr (fun name item => .element name.toList [] [item]) table]).tree

def rulerRow : Item :=
  .element "tr".toList [] [.element "td".toList [] [.element "hr".toList [] []]]

/-- In a quotation both the grid and the ruler in its cell stand alone. -/
theorem standing_renderWith_quotedTable :
    let s : Scene := { tree := tableIn ["blockquote"] [rulerRow] }
    let r := start s (Cache.clear {})
    Kept s r.cache ∧
      (∃ v e, Reaches s ⟨Tree.maxDepth, 1, r⟩ v ∧ v.Enters s (.element e) ∧ e.tag = .table ∧
        v.Stands s e (renderWith s 1 {}).rendered.text) ∧
      ∃ v e, Reaches s ⟨253, 4, cellStart s (some 4) 1 r⟩ v ∧ v.Enters s (.element e) ∧
        e.tag = .hr ∧ ∃ t, v.Stands s e t := by
  intro s r
  have hkept : Kept s r.cache := .clear {}
  obtain ⟨-, hpage, -, hcell⟩ := standing_renderWith s 1 {}
  refine ⟨hkept, ?_, ?_⟩
  · have hquote : (⟨Tree.maxDepth, 1, r⟩ : Visit).Enters s
        (.element (.ofName "blockquote".toList [])) := ⟨by decide, rfl, by decide⟩
    have hreach := Relation.ReflTransGen.single (hquote.calls_first (x := 2) rfl)
    have htable : (Visit.first s ⟨Tree.maxDepth, 1, r⟩
        (.element (.ofName "blockquote".toList [])) 2).Enters s
          (.element (.ofName "table".toList [])) := ⟨by decide, rfl, by decide⟩
    exact ⟨_, _, hreach, htable, rfl, hpage _ _ hreach htable⟩
  · have hdata : (⟨253, 4, cellStart s (some 4) 1 r⟩ : Visit).Enters s
        (.element (.ofName "td".toList [])) := ⟨by decide, rfl, by decide⟩
    have hreach := Relation.ReflTransGen.single (hdata.calls_first (x := 5) rfl)
    have hruler : (Visit.first s ⟨253, 4, cellStart s (some 4) 1 r⟩
        (.element (.ofName "td".toList [])) 5).Enters s
          (.element (.ofName "hr".toList [])) := ⟨by decide, rfl, by decide⟩
    obtain ⟨t, -, -, -, hstands⟩ := hcell r 253 4 1 true hkept
    exact ⟨_, _, hreach, hruler, rfl, _, hstands _ _ hreach hruler⟩

/-- A table in a list item has its first line behind the label, and the indentation with it. -/
theorem shifted_tableInItem :
    let s : Scene := { tree := tableIn ["ul", "li"] [] }
    let text := (renderWith s Tree.root {}).rendered.text
    text = "*   +---+\n  |   |\n  +---+\n".toList ∧
      ∃ v e, Reaches s ⟨Tree.maxDepth, Tree.root, start s (Cache.clear {})⟩ v ∧
        v.Enters s (.element e) ∧ e.tag = .table ∧ v.start.layout.indentation = 2 ∧
        ¬ text.Shows [] (gridLines 2 (v.grid s e).1 (v.grid s e).2) := by
  intro s text
  have htext : text = "*   +---+\n  |   |\n  +---+\n".toList := by decide +kernel
  let v₀ : Visit := ⟨Tree.maxDepth, Tree.root, start s (Cache.clear {})⟩
  have h₀ : v₀.Enters s .document := ⟨by decide, rfl, by decide⟩
  let v₁ := v₀.first s .document 1
  have h₁ : v₁.Enters s (.element (.ofName "ul".toList [])) := ⟨by decide, rfl, by decide⟩
  let v₂ := v₁.first s (.element (.ofName "ul".toList [])) 2
  have h₂ : v₂.Enters s (.element (.ofName "li".toList [])) := ⟨by decide, rfl, by decide⟩
  let v₃ := v₂.first s (.element (.ofName "li".toList [])) 3
  have h₃ : v₃.Enters s (.element (.ofName "table".toList [])) := ⟨by decide, rfl, by decide⟩
  have hreach : Reaches s v₀ v₃ :=
    ((Relation.ReflTransGen.single (h₀.calls_first (x := 1) rfl)).tail
      (h₁.calls_first (x := 2) rfl)).tail (h₂.calls_first (x := 3) rfl)
  have hlines : gridLines 2 (v₃.grid s (.ofName "table".toList [])).1
      (v₃.grid s (.ofName "table".toList [])).2 =
        ["  +---+".toList, "  |   |".toList, "  +---+".toList] := by decide +kernel
  refine ⟨htext, v₃, _, hreach, h₃, rfl, by decide +kernel, ?_⟩
  rw [htext, hlines]
  rintro ⟨-, upper, lower, hupper, heq⟩
  match upper with
  | [] => cases heq
  | [a] =>
    obtain rfl : '*' = a := (List.cons.inj heq).1
    exact absurd hupper (by unfold Text.Finished; decide)
  | [a, b] =>
    obtain rfl : ' ' = b := (List.cons.inj (List.cons.inj heq).2).1
    exact absurd hupper (by unfold Text.Finished; simp)
  | a :: b :: c :: u =>
    have hlength := congrArg List.length heq
    simp [ended] at hlength
    omega

end MarkupText
