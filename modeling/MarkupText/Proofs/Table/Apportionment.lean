import MarkupText.Proofs.Table.Surplus
import Mathlib.Data.List.Count
import Mathlib.Data.List.Perm.Basic

/-!
# Sharing out the width of a table

Columns share the width that indentation and separators leave in proportion to their weights. Shares
are rounded down first, and what is left goes to different columns, those in front of the order of
remainders, which lists every column once (`remainderOrder_perm`). So nothing is left over
(`sum_apportion`), and the grid is too wide only by what narrow columns are raised to the least
width (`prorate_fits`).
-/

namespace MarkupText.Table
variable {floors order raised : List Nat} {leftover : Nat}

/-! ### Columns that are raised by one -/

theorem sum_map_ite {α : Type} (p : α → Prop) [DecidablePred p] (as : List α) :
    (as.map fun a => if p a then 1 else 0).sum = as.countP fun a => p a := by
  induction as with
  | nil => rfl
  | cons a as ih =>
    rw [List.map_cons, List.sum_cons, ih, List.countP_cons, Nat.add_comm]
    simp

/-- Indices below `n` without repetition are as many as the numbers below `n` among them. -/
theorem countP_range_mem {n : Nat} (hnodup : raised.Nodup) (hlt : ∀ i ∈ raised, i < n) :
    ((List.range n).countP fun i => i ∈ raised) = raised.length := by
  rw [List.countP_eq_length_filter]
  refine List.Perm.length_eq ((List.perm_ext_iff_of_nodup (List.nodup_range.filter _) hnodup).2 ?_)
  intro i
  simpa using hlt i

theorem apportion_eq_map (floors order : List Nat) (leftover : Nat) :
    apportion floors order leftover = floors.zipIdx.map fun (w, i) =>
      w + if i ∈ order.take leftover then 1 else 0 := by
  rw [apportion, List.mapIdx_eq_zipIdx_map]
  refine List.map_congr_left fun (w, i) _ => ?_
  dsimp only
  split <;> rfl

theorem forall₂_apportion (floors order : List Nat) (leftover : Nat) :
    List.Forall₂ (fun f w => w = f ∨ w = f + 1) floors (apportion floors order leftover) := by
  have h : List.Forall₂ (fun f w => w = f ∨ w = f + 1) (floors.zipIdx.map Prod.fst)
      (apportion floors order leftover) := by
    rw [apportion_eq_map, List.forall₂_map_left_iff, List.forall₂_map_right_iff, List.forall₂_same]
    intro (w, i) _
    dsimp only
    split <;> simp
  rwa [List.zipIdx_map_fst] at h

/-- If the order lists every column once, all that is left over is given away. -/
theorem sum_apportion (h : order.Perm (List.range floors.length))
    (hle : leftover ≤ floors.length) :
    (apportion floors order leftover).sum = floors.sum + leftover := by
  have hraised : (order.take leftover).Nodup :=
    (h.nodup_iff.2 List.nodup_range).sublist (List.take_sublist ..)
  have hlt (i : Nat) (hi : i ∈ order.take leftover) : i < floors.length :=
    List.mem_range.1 (h.mem_iff.1 (List.mem_of_mem_take hi))
  have hindices : (floors.zipIdx.map fun p => if p.2 ∈ order.take leftover then 1 else 0) =
      (List.range floors.length).map fun i => if i ∈ order.take leftover then 1 else 0 := by
    rw [List.range_eq_range', ← List.zipIdx_map_snd 0 floors, List.map_map]
    rfl
  calc (apportion floors order leftover).sum
      = (floors.zipIdx.map Prod.fst).sum +
          (floors.zipIdx.map fun p => if p.2 ∈ order.take leftover then 1 else 0).sum := by
        rw [apportion_eq_map, List.sum_map_add]
    _ = floors.sum + (order.take leftover).length := by
        rw [List.zipIdx_map_fst, hindices, sum_map_ite, countP_range_mem hraised hlt]
    _ = floors.sum + leftover := by
        rw [List.length_take, h.length_eq, List.length_range, Nat.min_eq_left hle]

/-- The order of remainders lists every column once. -/
theorem remainderOrder_perm (shares : List Float) :
    (remainderOrder shares).Perm (List.range shares.length) := by
  unfold remainderOrder
  refine ((List.mergeSort_perm ..).map Prod.fst).trans ?_
  rw [List.map_fst_zip (by simp), List.length_map]

/-! ### Shares by weight -/

/-- The share of each column of what is available. -/
def shares (weights : List Float) (available : Nat) : List Float :=
  weights.map fun w => w / weights.foldl (· + ·) 0 * natFloat available

/-- The shares rounded down. -/
def floorShares (weights : List Float) (available : Nat) : List Nat :=
  (shares weights available).map floorNat

theorem shareOut_eq (weights : List Float) (available : Nat) :
    shareOut weights available = apportion (floorShares weights available)
      (remainderOrder (shares weights available))
      (available - (floorShares weights available).sum) := by
  rw [shareOut, ← List.sum_eq_foldl (α := Nat)]
  rfl

theorem length_floorShares (weights : List Float) (available : Nat) :
    (floorShares weights available).length = weights.length := by
  simp [floorShares, shares]

theorem length_shareOut (weights : List Float) (available : Nat) :
    (shareOut weights available).length = weights.length :=
  ((forall₂_apportion ..).length_eq).symm.trans (length_floorShares weights available)

/-- Everything available is shared out if the rounded shares leave at most one for each column. -/
theorem sum_shareOut {weights : List Float} {available : Nat}
    (hle : (floorShares weights available).sum ≤ available)
    (hge : available ≤ (floorShares weights available).sum + weights.length) :
    (shareOut weights available).sum = available := by
  have horder := remainderOrder_perm (shares weights available)
  have hlength : (shares weights available).length = (floorShares weights available).length :=
    (List.length_map _).symm
  rw [hlength] at horder
  rw [shareOut_eq, sum_apportion horder (by rw [length_floorShares]; omega)]
  omega

/-- A positive float is not at most zero. -/
theorem not_le_zero_of_pos {x : Float} (h : 0 < x) : ¬ x ≤ 0 := by
  intro hle
  have hzero : (0 : Float).toModel.unpack = .zero .positive := rfl
  have h : (0 : Float).toModel.unpack.compare x.toModel.unpack = some .lt :=
    eq_of_beq (of_decide_eq_true h)
  have hle : (x.toModel.unpack.compare (0 : Float).toModel.unpack).any (·.isLE) = true :=
    of_decide_eq_true hle
  rw [hzero] at h hle
  generalize x.toModel.unpack = u at h hle
  -- what is compared is decided by the signs, except for two zeros
  cases u with
  | notANumber => cases h
  | zero s => cases h
  | infinity s =>
    cases s with
    | positive => cases hle
    | negative => cases h
  | finite s m e hm =>
    cases s with
    | positive => cases hle
    | negative => cases h

theorem prorate_eq {weights : List Float} (h : 0 < weights.foldl (· + ·) 0)
    (width indentation : Nat) : prorate weights width indentation =
      (shareOut weights (width - (indentation + weights.length + 1))).map (max minColumnWidth) :=
  if_neg (not_le_zero_of_pos h)

/-- What columns are raised by adds to their sum. -/
theorem sum_map_max (least : Nat) (ns : List Nat) :
    (ns.map (max least)).sum = ns.sum + (ns.map (least - ·)).sum := by
  rw [show max least = fun n => n + (least - n) from funext fun n => by omega, List.sum_map_add,
    List.map_id']

/-- Before columns are raised to the least width, each has its share rounded down or one more, and
together they have all the width that indentation and separators leave. The grid ends where the
table does if no column is raised, and is else too wide by what the columns are raised. -/
theorem prorate_fits {weights : List Float} {width indentation available : Nat}
    (hpos : 0 < weights.foldl (· + ·) 0)
    (hwidth : indentation + weights.length + 1 + available = width)
    (hle : (floorShares weights available).sum ≤ available)
    (hge : available ≤ (floorShares weights available).sum + weights.length) :
    let shared := shareOut weights available
    let widths := prorate weights width indentation
    widths.length = weights.length ∧ (∀ w ∈ widths, minColumnWidth ≤ w) ∧
    widths = shared.map (max minColumnWidth) ∧
    List.Forall₂ (fun f w => w = f ∨ w = f + 1) (floorShares weights available) shared ∧
    shared.sum = available ∧
    ((∀ w ∈ shared, minColumnWidth ≤ w) → indentation + gridWidth widths = width) ∧
    indentation + gridWidth widths = width + (shared.map (minColumnWidth - ·)).sum := by
  intro shared widths
  have hwidths : widths = shared.map (max minColumnWidth) := by
    have havailable : width - (indentation + weights.length + 1) = available := by omega
    have h := prorate_eq hpos width indentation
    rwa [havailable] at h
  have hlength : widths.length = weights.length := by
    rw [hwidths, List.length_map, length_shareOut]
  have htotal : shared.sum = available := sum_shareOut hle hge
  have hraised := sum_map_max minColumnWidth shared
  have hgrid : indentation + gridWidth widths = width + (shared.map (minColumnWidth - ·)).sum := by
    rw [gridWidth_eq, hlength, hwidths, hraised, htotal]
    omega
  refine ⟨hlength, fun w hw => ?_, hwidths, forall₂_apportion .., htotal, fun hwide => ?_, hgrid⟩
  · rw [hwidths] at hw
    obtain ⟨v, -, rfl⟩ := List.mem_map.1 hw
    exact Nat.le_max_left ..
  · have hsame : shared.map (max minColumnWidth) = shared :=
      (List.map_congr_left fun w hw => Nat.max_eq_right (hwide w hw)).trans (List.map_id _)
    rw [hsame] at hraised
    omega

theorem prorate_fits_thirds :
    0 < [1, 1, 1].foldl (· + ·) (0 : Float) ∧ (floorShares [1, 1, 1] 34).sum = 33 ∧
      (shareOut [1, 1, 1] 34).sum = 34 ∧ 2 + gridWidth (prorate [1, 1, 1] 40 2) = 40 := by
  have hpos : 0 < [1, 1, 1].foldl (· + ·) (0 : Float) := by decide +kernel
  have hfloors : floorShares [1, 1, 1] 34 = [11, 11, 11] := by decide +kernel
  have htotal : (floorShares [1, 1, 1] 34).sum = 33 := by rw [hfloors]; rfl
  have hwidth : 2 + ([1, 1, 1] : List Float).length + 1 + 34 = 40 := rfl
  obtain ⟨-, -, -, hshares, hshared, hwide, -⟩ :=
    prorate_fits hpos hwidth (by rw [htotal]; decide) (by rw [htotal]; decide)
  refine ⟨hpos, htotal, hshared, hwide fun w hw => ?_⟩
  rw [hfloors] at hshares
  generalize shareOut [1, 1, 1] 34 = shared at hshares hw
  obtain _ | ⟨h₁, _ | ⟨h₂, _ | ⟨h₃, _ | _⟩⟩⟩ := hshares
  simp only [List.mem_cons, List.not_mem_nil, or_false] at hw
  have hleast : minColumnWidth = 3 := rfl
  omega

end MarkupText.Table
