import MarkupText.Table.Grid
import Mathlib.Data.List.Forall2

/-!
# Grids of related tables

A relation between nodes is `Tree.Descending` if it holds of equal elements only and goes on to
their children. Tables whose children are related have grids of the same shape with related cells
(`Grid.alike_collect`), whose columns have the same weights (`Grid.Alike.weights_eq`).
-/

namespace MarkupText

/-- A relation that holds of equal elements only, and goes on to their children in order. -/
structure Tree.Descending (t : Tree) (R : NodeId → NodeId → Prop) : Prop where
  children : ∀ {a b}, R a b → List.Forall₂ R (t.children a) (t.children b)
  element : ∀ {a b}, R a b → t.element? a = t.element? b

theorem Tree.Descending.tag {t : Tree} {R : NodeId → NodeId → Prop} (hR : t.Descending R)
    {a b : NodeId} (h : R a b) : t.tag? a = t.tag? b := by
  rw [tag?, tag?, hR.element h]

namespace Grid
variable {t : Tree} {R : NodeId → NodeId → Prop} {a b : NodeId} {as bs : List NodeId}

/-- Rows with related row elements and cells. -/
structure RowAlike (R : NodeId → NodeId → Prop) (r r' : GridRow) : Prop where
  row : Option.Rel R r.row r'.row
  cells : List.Forall₂ (Option.Rel R) r.cells r'.cells

/-- Grids of the same shape with related captions, rows and cells. -/
structure Alike (R : NodeId → NodeId → Prop) (g g' : Grid) : Prop where
  caption : Option.Rel R g.caption g'.caption
  rows : List.Forall₂ (RowAlike R) g.rows g'.rows
  columns : g.columns = g'.columns

/-! ### Collecting -/

theorem forall₂_childrenWith (hR : t.Descending R)
    (h : List.Forall₂ R (t.children a) (t.children b)) (p : Tag → Bool) :
    List.Forall₂ R (childrenWith t a p) (childrenWith t b p) := by
  refine List.rel_filter (fun c d hcd => ?_) h
  dsimp only
  rw [hR.tag hcd]

theorem forall₂_rowsOf (hR : t.Descending R) (h : List.Forall₂ R (t.children a) (t.children b))
    (p : Tag → Bool) : List.Forall₂ R (rowsOf t a p) (rowsOf t b p) := by
  refine List.rel_flatMap (forall₂_childrenWith hR h p) fun c d hcd => ?_
  rw [hR.tag hcd]
  split
  · exact .cons hcd .nil
  · exact forall₂_childrenWith hR (hR.children hcd) _

def rowNodes (t : Tree) (table : NodeId) : List NodeId :=
  rowsOf t table (· = .thead) ++ rowsOf t table (fun g => g = .tr || g = .tbody) ++
    rowsOf t table (· = .tfoot)

/-- A row filled up to `columns` cells. -/
def filledRow (columns : Nat) (row : Option NodeId) (cells : List NodeId) : GridRow :=
  ⟨row, cells.map some ++ List.replicate (columns - cells.length) none⟩

/-- The number of columns for some rows of cells. -/
def columnsOf (cells : List (List NodeId)) : Nat := max 1 ((cells.map List.length).foldl max 0)

theorem collect_eq (t : Tree) (table : NodeId) : (collect t table).1 =
    let rows := rowNodes t table
    let columns := columnsOf (rows.map (cellsOf t))
    { caption := (childrenWith t table (· = .caption)).head?
      rows := if rows.isEmpty then [filledRow columns none []]
        else rows.zipWith (fun r cs => filledRow columns (some r) cs) (rows.map (cellsOf t))
      columns } := rfl

theorem forall₂_rowNodes (hR : t.Descending R)
    (h : List.Forall₂ R (t.children a) (t.children b)) :
    List.Forall₂ R (rowNodes t a) (rowNodes t b) :=
  List.rel_append (List.rel_append (forall₂_rowsOf hR h _) (forall₂_rowsOf hR h _))
    (forall₂_rowsOf hR h _)

theorem forall₂_cellsOf (hR : t.Descending R) (h : R a b) :
    List.Forall₂ R (cellsOf t a) (cellsOf t b) :=
  forall₂_childrenWith hR (hR.children h) _

theorem rowAlike_filledRow (columns : Nat) {row row' : Option NodeId} (hrow : Option.Rel R row row')
    (h : List.Forall₂ R as bs) :
    RowAlike R (filledRow columns row as) (filledRow columns row' bs) := by
  refine ⟨hrow, List.rel_append (List.rel_map (fun _ _ h => .some h) h) ?_⟩
  rw [h.length_eq]
  exact List.forall₂_same.2 fun c hc => by rw [List.eq_of_mem_replicate hc]; exact .none

theorem columnsOf_eq (hR : t.Descending R) (h : List.Forall₂ R as bs) :
    columnsOf (as.map (cellsOf t)) = columnsOf (bs.map (cellsOf t)) := by
  have hlen : as.map (fun a => (cellsOf t a).length) = bs.map fun b => (cellsOf t b).length := by
    induction h with
    | nil => rfl
    | cons hab _ ih => rw [List.map_cons, List.map_cons, ih, (forall₂_cellsOf hR hab).length_eq]
  unfold columnsOf
  rw [List.map_map, List.map_map]
  exact congrArg (fun l => max 1 (List.foldl max 0 l)) hlen

theorem forall₂_filledRows (hR : t.Descending R) (columns : Nat) (h : List.Forall₂ R as bs) :
    List.Forall₂ (RowAlike R)
      (as.zipWith (fun r cs => filledRow columns (some r) cs) (as.map (cellsOf t)))
      (bs.zipWith (fun r cs => filledRow columns (some r) cs) (bs.map (cellsOf t))) := by
  induction h with
  | nil => exact .nil
  | cons hab _ ih =>
    exact .cons (rowAlike_filledRow columns (.some hab) (forall₂_cellsOf hR hab)) ih

/-- Tables with related children have grids of the same shape with related cells. -/
theorem alike_collect (hR : t.Descending R) (h : List.Forall₂ R (t.children a) (t.children b)) :
    Alike R (collect t a).1 (collect t b).1 := by
  have hrows := forall₂_rowNodes hR h
  have hempty {as bs : List NodeId} (h : List.Forall₂ R as bs) : as.isEmpty = bs.isEmpty := by
    cases h <;> rfl
  have hhead {as bs : List NodeId} (h : List.Forall₂ R as bs) : Option.Rel R as.head? bs.head? := by
    cases h with
    | nil => exact .none
    | cons hcd _ => exact .some hcd
  rw [collect_eq, collect_eq]
  dsimp only
  rw [columnsOf_eq hR hrows, hempty hrows]
  refine ⟨hhead (forall₂_childrenWith hR h _), ?_, rfl⟩
  · dsimp only
    split
    · exact .cons (rowAlike_filledRow _ .none .nil) .nil
    · exact forall₂_filledRows hR _ hrows

theorem Alike.cellNodes {g g' : Grid} (h : Alike R g g') :
    List.Forall₂ R g.cellNodes g'.cellNodes :=
  List.rel_flatMap h.rows fun _ _ hrow => List.rel_filterMap (fun _ _ hcd => hcd) hrow.cells

/-! ### Weights -/

theorem rel_getElem?_join {cs ds : List (Option NodeId)}
    (h : List.Forall₂ (Option.Rel R) cs ds) (i : Nat) :
    Option.Rel R (cs[i]?).join (ds[i]?).join := by
  induction h generalizing i with
  | nil => exact .none
  | cons hcd _ ih =>
    cases i with
    | zero => exact hcd
    | succ i => exact ih i

theorem Alike.weights_eq {g g' : Grid} (hR : t.Descending R) (h : Alike R g g') :
    g.weights t = g'.weights t := by
  have hcolumn (i : Nat) : List.Forall₂ R (g.column i) (g'.column i) :=
    List.rel_filterMap (fun _ _ hrow => rel_getElem?_join hrow.cells i) h.rows
  have hfind {β : Type} (f : Option Element → Option β) {cs ds : List NodeId}
      (hcs : List.Forall₂ R cs ds) : cs.findSome? (fun c => f (t.element? c)) =
        ds.findSome? fun d => f (t.element? d) := by
    induction hcs with
    | nil => rfl
    | cons hcd _ ih => rw [List.findSome?_cons, List.findSome?_cons, hR.element hcd, ih]
  unfold weights
  rw [h.columns]
  refine List.map_congr_left fun i _ => ?_
  exact congrArg (·.getD 1)
    (hfind (fun e => (e.bind (·.attr? "width")).bind readPercentage?) (hcolumn i))

end Grid
end MarkupText
