import MarkupText.Table.Widths
import Mathlib.Algebra.BigOperators.Ring.List
import Mathlib.Algebra.Order.BigOperators.Group.List
import Mathlib.Algebra.Order.Ring.Nat
import Mathlib.Data.List.Forall2

/-!
# Surplus width

After a trial every column starts with the width its cells used. What the suggestion leaves beyond
that is the surplus, and `reconcile` gives it to the columns that have room for it. `Reconciled`
says how: no column gets more than its room, each gets at least its proportional share, and the
columns together get the whole surplus unless all their room is taken (`reconciled_reconcile`).
-/

namespace MarkupText.Table

/-- The widths that the columns start with. -/
def starts (used : List Nat) : List Nat := used.map (max minColumnWidth)

/-- How much wider each column may get: one more than its cells would use freely, if it is cut
short. -/
def rooms (used natural : List Nat) : List Nat :=
  (starts used).zipWith (fun w n => if w < n then n + 1 - w else 0) natural

/-- What the suggestion leaves beyond the widths that the columns start with. -/
def surplus (suggested used : List Nat) : Nat := suggested.sum - (starts used).sum

/-- The widths share out the surplus. -/
structure Reconciled (suggested used natural widths : List Nat) : Prop where
  length : widths.length = suggested.length
  /-- A column keeps its start, stays within its room and gets its proportional share. -/
  columns : List.Forall₂ (fun (start, room) w => start ≤ w ∧ w ≤ start + room ∧
      min room (surplus suggested used * room / (rooms used natural).sum) ≤ w - start)
    ((starts used).zip (rooms used natural)) widths
  total_eq : widths.sum =
    (starts used).sum + min (surplus suggested used) (rooms used natural).sum
  /-- The grid stays within the suggested one if no cell was wider than suggested and no width was
  suggested below the least. -/
  grid_le : List.Forall₂ (· ≤ ·) used suggested → (∀ w ∈ suggested, minColumnWidth ≤ w) →
    gridWidth widths ≤ gridWidth suggested

/-! ### Sums -/

theorem gridWidth_eq (widths : List Nat) : gridWidth widths = widths.sum + widths.length + 1 := by
  rw [gridWidth, ← List.sum_eq_foldl]

/-- Shares that are rounded down come to no more than the whole. -/
theorem sum_shares_le (extra : Nat) (ns : List Nat) (h : 0 < ns.sum) :
    (ns.map fun n => extra * n / ns.sum).sum ≤ extra := by
  refine Nat.le_of_mul_le_mul_right ?_ h
  calc (ns.map fun n => extra * n / ns.sum).sum * ns.sum
      = (ns.map fun n => extra * n / ns.sum * ns.sum).sum := (List.sum_map_mul_right ns _ _).symm
    _ ≤ (ns.map fun n => extra * n).sum := List.sum_le_sum fun _ _ => Nat.div_mul_le_self ..
    _ = extra * ns.sum := by rw [List.sum_map_mul_left, List.map_id']

/-! ### Raising widths to their caps -/

variable {α : Type} {width cap : α → Nat}

/-- No column shrinks, and none gets past its cap. -/
theorem forall₂_raiseToCaps {as : List α} (h : ∀ a ∈ as, width a ≤ cap a) (remaining : Nat) :
    List.Forall₂ (fun a w => width a ≤ w ∧ w ≤ cap a) as
      (raiseToCaps remaining (as.map width) (as.map cap)) := by
  induction as generalizing remaining with
  | nil => exact .nil
  | cons a as ih =>
    have ha := h a List.mem_cons_self
    refine .cons ⟨Nat.le_add_right .., ?_⟩ (ih (fun b hb => h b (List.mem_cons_of_mem _ hb)) _)
    omega

/-- All of `remaining` is given away, or all columns are at their caps. -/
theorem sum_raiseToCaps {as : List α} (h : ∀ a ∈ as, width a ≤ cap a) (remaining : Nat) :
    (raiseToCaps remaining (as.map width) (as.map cap)).sum =
      (as.map width).sum + min remaining ((as.map cap).sum - (as.map width).sum) := by
  induction as generalizing remaining with
  | nil => simp [raiseToCaps]
  | cons a as ih =>
    have ha := h a List.mem_cons_self
    have has : ∀ b ∈ as, width b ≤ cap b := fun b hb => h b (List.mem_cons_of_mem _ hb)
    have hle : (as.map width).sum ≤ (as.map cap).sum := List.sum_le_sum has
    simp only [List.map_cons, raiseToCaps, List.sum_cons, ih has]
    omega

theorem addEach_map (f g : α → Nat) (as : List α) :
    addEach (as.map f) (as.map g) = as.map fun a => f a + g a := by
  induction as with
  | nil => rfl
  | cons a as ih => exact congrArg (_ :: ·) ih

/-! ### Reconciling -/

variable {suggested used natural : List Nat}

/-- Start and room of each column. -/
def columns (used natural : List Nat) : List (Nat × Nat) := (starts used).zip (rooms used natural)

/-- The part of the surplus that a column gets at first. -/
def share (extra demand : Nat) (column : Nat × Nat) : Nat :=
  min (extra * column.2 / demand) column.2

theorem length_rooms (h : natural.length = used.length) :
    (rooms used natural).length = (starts used).length := by
  simp [rooms, starts, h]

theorem map_fst_columns (h : natural.length = used.length) :
    (columns used natural).map Prod.fst = starts used :=
  List.map_fst_zip (Nat.le_of_eq (length_rooms h).symm)

theorem map_snd_columns (h : natural.length = used.length) :
    (columns used natural).map Prod.snd = rooms used natural :=
  List.map_snd_zip (Nat.le_of_eq (length_rooms h))

theorem reconcile_eq (h : natural.length = used.length) : reconcile suggested used natural =
    let extra := surplus suggested used
    let demand := (rooms used natural).sum
    let columns := columns used natural
    if extra = 0 ∨ demand = 0 then starts used
    else
      raiseToCaps (extra - (columns.map (share extra demand)).sum)
        (columns.map fun c => c.1 + share extra demand c) (columns.map fun c => c.1 + c.2) := by
  have hraised (g : Nat × Nat → Nat) : addEach (starts used) ((columns used natural).map g) =
      (columns used natural).map fun c => c.1 + g c := by
    rw [← map_fst_columns h, addEach_map]
  have hgranted (extra demand : Nat) :
      ((rooms used natural).map fun r => min (extra * r / demand) r) =
        (columns used natural).map (share extra demand) := by
    rw [← map_snd_columns h, List.map_map]
    rfl
  have hcaps : addEach (starts used) (rooms used natural) =
      (columns used natural).map fun c => c.1 + c.2 := by
    rw [← hraised, map_snd_columns h]
  dsimp only
  rw [← hraised, ← hgranted, ← hcaps]
  unfold reconcile
  simp only [← List.sum_eq_foldl]
  rfl

theorem forall₂_reconcile (suggested : List Nat) (h : natural.length = used.length) :
    List.Forall₂ (fun (start, room) w => start ≤ w ∧ w ≤ start + room ∧
        min room (surplus suggested used * room / (rooms used natural).sum) ≤ w - start)
      (columns used natural) (reconcile suggested used natural) := by
  rw [reconcile_eq h]
  generalize surplus suggested used = extra
  generalize (rooms used natural).sum = demand
  dsimp only
  split
  · rename_i hnone
    have hshare (room : Nat) : extra * room / demand = 0 := by
      rcases hnone with rfl | rfl
      · rw [Nat.zero_mul, Nat.zero_div]
      · exact Nat.div_zero _
    rw [← map_fst_columns h]
    refine List.forall₂_map_right_iff.2 (List.forall₂_same.2 fun (start, room) _ => ?_)
    dsimp only
    rw [hshare]
    omega
  · refine (forall₂_raiseToCaps (fun c _ => ?_) _).imp fun (start, room) w ⟨hle, hcap⟩ => ?_
    · exact Nat.add_le_add_left (Nat.min_le_right ..) _
    · rw [share] at hle
      dsimp only at hle hcap ⊢
      omega

theorem sum_reconcile (suggested : List Nat) (h : natural.length = used.length) :
    (reconcile suggested used natural).sum =
      (starts used).sum + min (surplus suggested used) (rooms used natural).sum := by
  rw [reconcile_eq h, ← map_fst_columns h, ← map_snd_columns h]
  generalize surplus suggested used = extra
  generalize columns used natural = columns
  generalize hdemand : (columns.map Prod.snd).sum = demand
  dsimp only
  split
  · omega
  · rename_i hsome
    have hshares : (columns.map (share extra demand)).sum ≤ extra := by
      have hfloors := sum_shares_le extra (columns.map Prod.snd) (by omega)
      rw [hdemand, List.map_map] at hfloors
      exact Nat.le_trans (List.sum_le_sum fun c _ => Nat.min_le_left ..) hfloors
    have hrooms : (columns.map (share extra demand)).sum ≤ (columns.map Prod.snd).sum :=
      List.sum_le_sum fun c _ => Nat.min_le_right ..
    have hcap : ∀ c ∈ columns, c.1 + share extra demand c ≤ c.1 + c.2 := fun c _ =>
      Nat.add_le_add_left (Nat.min_le_right ..) _
    rw [sum_raiseToCaps hcap, List.sum_map_add, List.sum_map_add]
    omega

/-- The surplus is shared out exactly and within the room of the columns. -/
theorem reconciled_reconcile (hused : used.length = suggested.length)
    (hnatural : natural.length = suggested.length) :
    Reconciled suggested used natural (reconcile suggested used natural) := by
  have h : natural.length = used.length := hnatural.trans hused.symm
  have hcolumns := forall₂_reconcile suggested h
  have htotal := sum_reconcile suggested h
  have hlength : (reconcile suggested used natural).length = suggested.length := by
    rw [← hcolumns.length_eq, columns, List.length_zip, length_rooms h, Nat.min_self, starts,
      List.length_map, hused]
  refine ⟨hlength, hcolumns, htotal, fun hfits hmin => ?_⟩
  have hstarts : (starts used).sum ≤ suggested.sum := by
    refine List.Forall₂.sum_le_sum (List.forall₂_map_left_iff.2 ?_)
    refine List.forall₂_iff_zip.2 ⟨hused, fun {u w} hmem => ?_⟩
    exact Nat.max_le.2 ⟨hmin w (List.of_mem_zip hmem).2, (List.forall₂_iff_zip.1 hfits).2 hmem⟩
  have hsurplus : surplus suggested used = suggested.sum - (starts used).sum := rfl
  rw [gridWidth_eq, gridWidth_eq, hlength, htotal]
  omega

/-- Two columns are cut short, a third one has width to spare. -/
theorem reconciled_reconcile_cutShort :
    let suggested := [10, 20, 14]
    let used := [10, 10, 3]
    let natural := [30, 12, 3]
    used.length = suggested.length ∧ natural.length = suggested.length ∧
      reconcile suggested used natural = [29, 12, 3] ∧
      Reconciled suggested used natural (reconcile suggested used natural) :=
  ⟨rfl, rfl, by decide, reconciled_reconcile rfl rfl⟩

/-- A column that was suggested too narrow gets the least width all the same. -/
theorem not_gridWidth_reconcile_le :
    List.Forall₂ (· ≤ ·) [2] [2] ∧ ¬ gridWidth (reconcile [2] [2] [2]) ≤ gridWidth [2] := by
  decide

end MarkupText.Table
