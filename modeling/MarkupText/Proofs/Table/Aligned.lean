import MarkupText.Proofs.Render.Kept
import MarkupText.Proofs.Table.GridTwins
import MarkupText.Proofs.Table.Surplus
import MarkupText.Proofs.Text.Measure
import MarkupText.Tree.Interchange

/-!
# Columns of tables

Every line of a cell is filled up to the width of its column, and a line is wider only if its cell
needs more (`Padded`). A table whose columns were widened less often than is allowed has no such
cell, so that all its rows are as wide as the lines between them (`aligned_negotiate`). The bound is
met by some tables: a cell can need more each time its column is widened (`not_aligned_kinsoku`).
-/

namespace MarkupText

open Text

namespace Cell
variable {t : Text} {spans : List Span} {width : Nat} {background : Option Color}

theorem width_pad (width : Nat) (background : Option Color) (l : CellLine) :
    (pad width background l).text.width = max width l.text.width := by
  rw [text_pad, width_append_spaces]
  omega

theorem le_foldl_max {ns : List Nat} {n m : Nat} (h : n ∈ ns ∨ n ≤ m) : n ≤ ns.foldl max m := by
  induction ns generalizing m with
  | nil => exact h.resolve_left (List.not_mem_nil)
  | cons k ns ih =>
    refine ih ?_
    rcases h with h | h
    · rcases List.mem_cons.1 h with rfl | h
      · exact .inr (Nat.le_max_right ..)
      · exact .inl h
    · exact .inr (Nat.le_trans h (Nat.le_max_left ..))

/-- Lines of a filled cell take its width, or what they need of the natural width. -/
theorem width_of_mem_ofText {l : CellLine} (hl : l ∈ (ofText t spans width true background).lines) :
    width ≤ l.text.width ∧
      l.text.width ≤ max width (ofText t spans width true background).naturalWidth := by
  obtain ⟨line, hline, rfl⟩ := List.mem_map.1 hl
  have hnatural : line.text.width ≤ (ofText t spans width true background).naturalWidth :=
    le_foldl_max (.inl (List.mem_map_of_mem hline))
  rw [width_pad]
  omega

/-- The cell is cut from a finished text as its key says. -/
def CutFor (key : CellKey) (c : Cell) : Prop :=
  ∃ t spans background, c = ofText t spans key.width key.fill background

end Cell

namespace Renderer

/-! ### Widths of rows -/

/-- Every row has a cell for each column, whose lines are as wide as the column or, if the cell
needs more, no wider than it needs. -/
def Padded (widths : List Nat) (rows : List (List Cell)) : Prop :=
  ∀ cells ∈ rows, List.Forall₂ (fun (c : Cell) w =>
    ∀ l ∈ c.lines, w ≤ l.text.width ∧ l.text.width ≤ max w c.naturalWidth) cells widths

/-- No cell needs more than the width of its column. -/
def Fits (widths : List Nat) (rows : List (List Cell)) : Prop :=
  ∀ cells ∈ rows, List.Forall₂ (fun (c : Cell) w => c.naturalWidth ≤ w) cells widths

/-- Every row has a cell for each column, with all lines as wide as the column. -/
def Aligned (widths : List Nat) (rows : List (List Cell)) : Prop :=
  ∀ cells ∈ rows, List.Forall₂ (fun (c : Cell) w => ∀ l ∈ c.lines, l.text.width = w) cells widths

variable {widths : List Nat} {rows : List (List Cell)} {cells : List Cell} {g : Grid}

instance : Decidable (Fits widths rows) := inferInstanceAs (Decidable (∀ cells ∈ rows, _))

instance : Decidable (Aligned widths rows) := inferInstanceAs (Decidable (∀ cells ∈ rows, _))

theorem Padded.aligned (h : Padded widths rows) (hfits : Fits widths rows) :
    Aligned widths rows := by
  refine fun cells hcells => (h cells hcells).mp (fun c w hpadded hfit l hl => ?_)
    (hfits cells hcells)
  obtain ⟨hle, hge⟩ := hpadded l hl
  omega

/-! ### Lines of the grid -/

/-- What line `i` of a cell leaves in a row. -/
def cellLine (i : Nat) (cell : Cell) (width : Nat) : Text :=
  match cell.lines[i]? with
  | some l => l.text
  | none => spaces width

theorem text_writeCellLine (i : Nat) (b : Buffer) (cell : Cell) (width : Nat) :
    (writeCellLine i b cell width).text = b.text ++ (cellLine i cell width ++ ['|']) := by
  have hspans (spans : List Span) (offset : Nat) (b : Buffer) :
      (spans.foldl (fun (b : Buffer) (a : Span) => b.add (a.shift offset)) b).text = b.text := by
    induction spans generalizing b with
    | nil => rfl
    | cons a spans ih => exact (ih _).trans (Buffer.text_add b _)
  unfold writeCellLine cellLine
  cases cell.lines[i]? with
  | some l => simp [hspans]
  | none => cases cell.background <;> simp

/-- The cells of line `i` of a row, each with the bar after it. -/
def rowBody (i : Nat) (cells : List (Cell × Nat)) : Text :=
  cells.flatMap fun (c, w) => cellLine i c w ++ ['|']

theorem text_writeRowLine (indentation : Nat) (widths : List Nat) (cells : List Cell) (b : Buffer)
    (i : Nat) : (writeRowLine indentation widths cells b i).text =
      b.text ++ (spaces indentation ++ '|' :: rowBody i (cells.zip widths)) ++ ['\n'] := by
  have hcells (places : List (Cell × Nat)) (b : Buffer) :
      (places.foldl (fun b (c, w) => writeCellLine i b c w) b).text =
        b.text ++ rowBody i places := by
    induction places generalizing b with
    | nil => exact (List.append_nil _).symm
    | cons place places ih =>
      exact (ih _).trans (by rw [text_writeCellLine, List.append_assoc]; rfl)
  unfold writeRowLine
  dsimp only
  rw [Buffer.text_push, hcells]
  simp

theorem width_rowBody (h : List.Forall₂ (fun (c : Cell) w => ∀ l ∈ c.lines, l.text.width = w) cells
    widths) (i : Nat) :
    width (rowBody i (cells.zip widths)) = widths.sum + widths.length := by
  induction h with
  | nil => rfl
  | @cons c w cells widths hc _ ih =>
    have hline : width (cellLine i c w) = w := by
      unfold cellLine
      split
      · rename_i l hl
        exact hc l (List.mem_of_getElem? hl)
      · exact (width_append_spaces [] w).trans (Nat.zero_add w)
    have hbody : rowBody i ((c :: cells).zip (w :: widths)) =
        cellLine i c w ++ '|' :: rowBody i (cells.zip widths) := by
      simp [rowBody]
    rw [hbody, width_append_cons solo_bar, hline, ih, List.sum_cons, List.length_cons]
    omega

theorem width_gridRuler (indentation : Nat) (widths : List Nat) :
    width (gridRuler indentation widths) = indentation + Table.gridWidth widths := by
  have hcorner : Solo '+' := solo_of_printable (by decide) (by decide)
  have hdashes (w : Nat) : width (List.replicate w '-') = w := by
    rw [width_eq_cols fun c hc => by rw [List.eq_of_mem_replicate hc]; decide]
    induction w with
    | zero => rfl
    | succ w ih => rw [List.replicate_succ, cols_cons, ih, Nat.add_comm]; rfl
  have hcolumns : width (widths.flatMap fun w => List.replicate w '-' ++ ['+']) =
      widths.sum + widths.length := by
    induction widths with
    | nil => rfl
    | cons w widths ih =>
      rw [List.flatMap_cons, List.append_assoc, List.singleton_append, width_append_cons hcorner,
        hdashes, ih, List.sum_cons, List.length_cons]
      omega
  rw [gridRuler, width_append_cons hcorner, hcolumns, Table.gridWidth_eq,
    show width (spaces indentation) = indentation from
      (width_append_spaces [] indentation).trans (Nat.zero_add indentation)]
  omega

/-- A row of an aligned table is as wide as the lines between the rows. -/
theorem Aligned.width_row (h : Aligned widths rows) (hcells : cells ∈ rows) (indentation : Nat)
    (b : Buffer) (i : Nat) : ∃ line,
      (writeRowLine indentation widths cells b i).text = b.text ++ line ++ ['\n'] ∧
        width line = width (gridRuler indentation widths) := by
  refine ⟨_, text_writeRowLine indentation widths cells b i, ?_⟩
  rw [width_append_cons solo_bar, width_rowBody (h cells hcells), width_gridRuler, Table.gridWidth_eq,
    show width (spaces indentation) = indentation from
      (width_append_spaces [] indentation).trans (Nat.zero_add indentation)]
  omega

/-! ### The shape of tables -/

/-- All rows have as many cells as there are columns. -/
def Square (g : Grid) : Prop := ∀ row ∈ g.rows, row.cells.length = g.columns

theorem square_collect (t : Tree) (table : NodeId) : Square (Grid.collect t table).1 := by
  have hfilled {columns : Nat} {row : Option NodeId} {cells : List NodeId}
      (h : cells.length ≤ columns) : (Grid.filledRow columns row cells).cells.length = columns := by
    simp only [Grid.filledRow, List.length_append, List.length_map, List.length_replicate]
    omega
  rw [Grid.collect_eq]
  intro row hrow
  dsimp only at hrow ⊢
  split at hrow
  · rw [List.mem_singleton.1 hrow]
    exact hfilled (Nat.zero_le _)
  · obtain ⟨i, hi, rfl⟩ := List.getElem_of_mem hrow
    rw [List.getElem_zipWith]
    refine hfilled (Nat.le_trans ?_ (Nat.le_max_right ..))
    refine Cell.le_foldl_max (.inl (List.mem_map_of_mem (List.getElem_mem _)))

theorem length_prorate (weights : List Float) (width indentation : Nat) :
    (Table.prorate weights width indentation).length = weights.length := by
  unfold Table.prorate
  split
  · exact List.length_map _
  · simp [Table.shareOut, Table.apportion]

theorem length_addEach (ns ms : List Nat) : (Table.addEach ns ms).length = ns.length := by
  induction ns generalizing ms with
  | nil => rfl
  | cons n ns ih => cases ms <;> simp [Table.addEach, ih]

theorem length_raiseToCaps (remaining : Nat) (ns ms : List Nat) :
    (Table.raiseToCaps remaining ns ms).length = ns.length := by
  induction ns generalizing remaining ms with
  | nil => rfl
  | cons n ns ih => cases ms <;> simp [Table.raiseToCaps, ih]

theorem length_reconcile (suggested used natural : List Nat) :
    (Table.reconcile suggested used natural).length = used.length := by
  unfold Table.reconcile
  dsimp only
  split
  · exact List.length_map _
  · rw [length_raiseToCaps, length_addEach, List.length_map]

variable {s : Scene} {visit : NodeId → Renderer → Renderer} {fill : Bool} {r : Renderer}

theorem length_renderCells (places : List (Option NodeId × Nat)) (r : Renderer) :
    (renderCells s visit fill places r).1.length = places.length := by
  induction places generalizing r with
  | nil => rfl
  | cons place places ih => exact congrArg (· + 1) (ih _)

theorem length_of_mem_renderRows (hg : Square g) (hw : widths.length = g.columns)
    (h : cells ∈ (renderRows s visit fill widths g.rows r).1) : cells.length = g.columns := by
  have hrows (rows : List GridRow) (hrows : ∀ row ∈ rows, row.cells.length = g.columns)
      (r : Renderer) : ∀ cells ∈ (renderRows s visit fill widths rows r).1,
        cells.length = g.columns := by
    induction rows generalizing r with
    | nil => exact fun _ h => by cases h
    | cons row rows ih =>
      intro cells h
      rcases List.mem_cons.1 h with rfl | h
      · rw [length_renderCells, List.length_zip, hrows row List.mem_cons_self, hw, Nat.min_self]
      · exact ih (fun row h => hrows row (List.mem_cons_of_mem _ h)) _ cells h
  exact hrows g.rows hg r cells h

theorem forall₂_le_trans {α : Type} (f : α → Nat) {as : List α} {ns ms : List Nat}
    (h : List.Forall₂ (fun a n => f a ≤ n) as ns) (hle : List.Forall₂ (· ≤ ·) ns ms) :
    List.Forall₂ (fun a n => f a ≤ n) as ms := by
  induction h generalizing ms with
  | nil =>
    cases hle
    exact .nil
  | cons hn _ ih =>
    cases hle with
    | cons hm hle => exact .cons (Nat.le_trans hn hm) (ih hle)

theorem Fits.mono {widths' : List Nat} (h : Fits widths rows)
    (hle : List.Forall₂ (· ≤ ·) widths widths') : Fits widths' rows :=
  fun cells hcells => forall₂_le_trans Cell.naturalWidth (h cells hcells) hle

theorem forall₂_widest {widest : List Nat} (h : cells.length = widest.length) :
    List.Forall₂ (· ≤ ·) widest (widest.zipWith (fun w (c : Cell) => max w c.naturalWidth) cells) ∧
      List.Forall₂ (fun (c : Cell) w => c.naturalWidth ≤ w) cells
        (widest.zipWith (fun w (c : Cell) => max w c.naturalWidth) cells) := by
  induction cells generalizing widest with
  | nil =>
    rw [List.eq_nil_of_length_eq_zero h.symm]
    exact ⟨.nil, .nil⟩
  | cons c cells ih =>
    cases widest with
    | nil => cases h
    | cons w widest =>
      obtain ⟨hwidest, hcells⟩ := ih (Nat.succ.inj h)
      exact ⟨.cons (Nat.le_max_left ..) hwidest, .cons (Nat.le_max_right ..) hcells⟩

/-- The widest cells of the columns leave room for all others. -/
theorem fits_extents {columns : Nat} (h : ∀ cells ∈ rows, cells.length = columns) :
    Fits (extents columns rows) rows ∧ (extents columns rows).length = columns := by
  have hfold (rows : List (List Cell)) (h : ∀ cells ∈ rows, cells.length = columns)
      (widest : List Nat) (hwidest : widest.length = columns) :
      let final := rows.foldl (fun widest cells =>
        widest.zipWith (fun w c => max w c.naturalWidth) cells) widest
      List.Forall₂ (· ≤ ·) widest final ∧ Fits final rows := by
    induction rows generalizing widest with
    | nil => exact ⟨List.forall₂_same.2 fun _ _ => Nat.le_refl _, fun _ h => by cases h⟩
    | cons cells rows ih =>
      have hcells := h cells List.mem_cons_self
      obtain ⟨hgrown, hroom⟩ := forall₂_widest (hcells.trans hwidest.symm)
      obtain ⟨hle, hfits⟩ := ih (fun cells hmem => h cells (List.mem_cons_of_mem _ hmem)) _
        (hgrown.length_eq.symm.trans hwidest)
      refine ⟨forall₂_le_trans id hgrown hle, fun cells' hmem => ?_⟩
      rcases List.mem_cons.1 hmem with rfl | hmem
      · exact forall₂_le_trans Cell.naturalWidth hroom hle
      · exact hfits cells' hmem
  obtain ⟨hle, hfits⟩ := hfold rows h (List.replicate columns 0) List.length_replicate
  exact ⟨hfits, hle.length_eq.symm.trans List.length_replicate⟩

/-! ### Rounds of widening -/

/-- If columns are widened less often than is allowed then all cells fit. -/
theorem finalRows_spec (hg : Square g) (passes : Nat) (hw : widths.length = g.columns)
    (r : Renderer) :
    let out := finalRows s visit g passes widths r
    out.1.length = g.columns ∧
      (rounds s visit g passes (widths, r) < passes → Fits out.1 out.2.1) := by
  induction passes generalizing widths r with
  | zero => exact ⟨hw, fun h => absurd h (Nat.lt_irrefl 0)⟩
  | succ passes ih =>
    have hrows : ∀ cells ∈ (renderRows s visit true widths g.rows r).1, cells.length = g.columns :=
      fun cells => length_of_mem_renderRows hg hw
    obtain ⟨hfits, hlength⟩ := fits_extents hrows
    unfold finalRows rounds
    dsimp only
    split
    · rename_i hall
      refine ⟨hw, fun _ => hfits.mono ?_⟩
      refine List.forall₂_iff_zip.2 ⟨hlength.trans hw.symm, fun {n w} hmem => ?_⟩
      exact of_decide_eq_true (List.all_eq_true.1 hall (n, w) hmem)
    · have hgrown : (widths.zipWith max (extents g.columns
          (renderRows s visit true widths g.rows r).1)).length = g.columns := by
        rw [List.length_zipWith, hw, hlength, Nat.min_self]
      obtain ⟨hlen, hfit⟩ := ih hgrown (renderRows s visit true widths g.rows r).2
      exact ⟨hlen, fun h => hfit (Nat.lt_of_succ_lt_succ h)⟩

theorem length_proposed (hg : Square g) (r : Renderer) :
    (proposed s visit g r).1.length = g.columns := by
  have hsuggested : (Table.prorate (g.weights s.tree) r.layout.width r.layout.indentation).length =
      g.columns := by
    rw [length_prorate, Grid.weights, List.length_map, List.length_range]
  exact (length_reconcile _ _ _).trans
    (fits_extents fun cells => length_of_mem_renderRows hg hsuggested).2

/-! ### Cells that are kept -/

theorem invariant_cutFor (s : Scene) : Invariant s (fun _ _ => True) Cell.CutFor where
  layout _ _ _ _ := trivial
  ensureNewline _ := trivial
  ensureParagraph _ := trivial
  openRegion _ := trivial
  endRegion _ _ _ := trivial
  endColors _ _ := trivial
  insert _ _ := trivial
  lineBreak _ := trivial
  ruler _ := trivial
  labelled _ := trivial
  image _ _ := trivial
  cell _ _ := trivial
  cut _ _ _ := ⟨_, _, _, rfl⟩
  grid _ _ _ _ := trivial

theorem Kept.keeps {c : CellCache} (h : Kept s c) : c.Keeps Cell.CutFor := by
  have hI := invariant_cutFor s
  induction h with
  | clear c => exact fun _ he => by cases he
  | lookup h key ih =>
    unfold Cache.lookup
    split <;> exact ih
  | cell h levels fill cell width ih =>
    exact (hI.drawn_renderCell (hI.node levels) fill cell width _ ih).cache
  | @node r h levels id ih =>
    exact (hI.node levels id (b := true) (r := r) ⟨trivial, ih⟩).cache

theorem padded_of_drawn (hg : Square g) (hw : widths.length = g.columns)
    (h : List.Forall₂ (fun row : GridRow => Invariant.RowDrawn Cell.CutFor true
      (row.cells.zip widths)) g.rows rows) : Padded widths rows := by
  have hrow {places : List (Option NodeId × Nat)} {cells : List Cell}
      (h : Invariant.RowDrawn Cell.CutFor true places cells) :
      List.Forall₂ (fun (c : Cell) w => ∀ l ∈ c.lines,
        w ≤ l.text.width ∧ l.text.width ≤ max w c.naturalWidth) cells (places.map Prod.snd) := by
    refine List.forall₂_map_right_iff.2
      (h.flip.imp fun c place ⟨key, hwidth, hfill, hcut⟩ l hl => ?_)
    obtain ⟨t, spans, background, rfl⟩ := hcut
    rw [hfill] at hl ⊢
    rw [← hwidth]
    exact Cell.width_of_mem_ofText hl
  intro cells hcells
  obtain ⟨i, hi, rfl⟩ := List.getElem_of_mem hcells
  have hi' : i < g.rows.length := h.length_eq ▸ hi
  have hdrawn := hrow (h.get hi' hi)
  rwa [List.map_snd_zip] at hdrawn
  exact Nat.le_of_eq (hw.trans (hg _ (List.getElem_mem hi')).symm)

end Renderer

open Renderer Visit

/-- When a grid is written, every row has a cell for each column; the lines of a cell are as wide as
its column, or as the cell needs. They are as wide as the column, and so the row as the lines
between the rows, unless columns were widened as often as is allowed and some cell needs still
more. So it is with whatever cells were kept before, and with those of every table that a render
meets. -/
theorem aligned_negotiate (s : Scene) :
    (∀ id (cache : CellCache) v e, Meets s ⟨Tree.maxDepth, id, start s cache.clear⟩ v →
      Kept s ((v.filled s (.element e)).onBuffer (·.ensureNewline)).cache) ∧
    ∀ r, Kept s r.cache → ∀ levels table,
      let g := (Grid.collect s.tree table).1
      let out := negotiate s (node s levels) g r
      let p := proposed s (node s levels) g r
      let n := rounds s (node s levels) g maxWidenings p
      Padded out.1 out.2.1 ∧ n ≤ maxWidenings ∧ out.1 = (widened s (node s levels) g n p).1 ∧
        (n < maxWidenings ∨ Fits out.1 out.2.1 →
          Aligned out.1 out.2.1 ∧ ∀ cells ∈ out.2.1, ∀ indentation b i, ∃ line,
            (writeRowLine indentation out.1 cells b i).text = b.text ++ line ++ ['\n'] ∧
              line.width = (gridRuler indentation out.1).width) := by
  have hI := invariant_cutFor s
  refine ⟨fun id cache v e hv => keep_filled (upkeep_kept s) (hv.kept (.clear cache)) _,
    fun r hr levels table => ?_⟩
  have hg := square_collect s.tree table
  dsimp only
  generalize (Grid.collect s.tree table).1 = g at hg
  have hproposed : (proposed s (node s levels) g r).1.length = g.columns := length_proposed hg r
  obtain ⟨hlength, hfit⟩ :=
    finalRows_spec hg maxWidenings hproposed (proposed s (node s levels) g r).2
  have hpadded :=
    padded_of_drawn hg hlength (hI.drawn_negotiate (hI.node levels) g r hr.keeps).drawn
  refine ⟨hpadded, rounds_le .., by rw [negotiate_eq, finalRows_eq], fun h => ?_⟩
  have haligned := hpadded.aligned (h.elim hfit id)
  exact ⟨haligned, fun cells hcells indentation b i => haligned.width_row hcells indentation b i⟩

def oneCell (t : Text) : Tree :=
  let cell : Item := .element "td".toList [] [.text t]
  (Loaded.ofItems [.element "table".toList [] [.element "tr".toList [] [cell]]]).tree

/-- The state in which a render meets the table of `oneCell`. -/
def meetsCell (s : Scene) : Renderer := { start s {} with visited := [1, 0], path := [1, 0] }

theorem aligned_negotiate_oneCell :
    let s : Scene := { tree := oneCell ['a'] }
    let u : Visit := ⟨Tree.maxDepth, Tree.root, start s (Cache.clear {})⟩
    let out := negotiate s (node s 254) (Grid.collect s.tree 1).1 (meetsCell s)
    (∃ v e, Meets s u v ∧ v.Enters s (.element e) ∧ e.tag = .table ∧
      Kept s ((v.filled s (.element e)).onBuffer (·.ensureNewline)).cache) ∧
    Kept s (meetsCell s).cache ∧ Fits out.1 out.2.1 ∧ Padded out.1 out.2.1 ∧
      Aligned out.1 out.2.1 := by
  intro s u out
  have hu : u.Enters s .document := ⟨by decide, rfl, by decide⟩
  let v : Visit := ⟨u.levels - 1, 1, visits (u.below s) [] (u.opened s .document)⟩
  have hmeets : Meets s u v := .single (.inl (@Calls.shown s u .document [] [] 1 hu rfl))
  have htable : v.Enters s (.element (.ofName "table".toList [])) := ⟨by decide, rfl, by decide⟩
  have hfits : Fits out.1 out.2.1 := by decide +kernel
  have hkept : Kept s (meetsCell s).cache := .clear {}
  have hout : negotiate s (node s 254) (Grid.collect s.tree 1).1 (meetsCell s) = out := rfl
  obtain ⟨hmet, h⟩ := aligned_negotiate s
  have hcell := h (meetsCell s) hkept 254 1
  -- from here on the table need not be laid out again
  clear_value out
  simp only [hout] at hcell
  obtain ⟨hpadded, -, -, haligned⟩ := hcell
  exact ⟨⟨v, _, hmeets, htable, rfl, hmet Tree.root {} v _ hmeets⟩, hkept, hfits, hpadded,
    (haligned (.inr hfits)).1⟩

/-- A scene in which no line may begin with a `b`. -/
def kinsoku : Scene where
  tree := oneCell "abbbbabbbbbbbbbbabbbbbbbab".toList
  options := { width := .fixed 5, rules := .ofSets ['a', 'b'] [] ['b'] [] }

theorem not_aligned_kinsoku :
    let out :=
      negotiate kinsoku (node kinsoku 254) (Grid.collect kinsoku.tree 1).1 (meetsCell kinsoku)
    Kept kinsoku (meetsCell kinsoku).cache ∧ ¬ Aligned out.1 out.2.1 := by
  intro out
  have hunaligned : ¬ Aligned out.1 out.2.1 := by decide +kernel
  exact ⟨.clear {}, hunaligned⟩

end MarkupText
