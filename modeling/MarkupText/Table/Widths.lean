import MarkupText.Decimal.Digits

/-!
# Column widths

`prorate` suggests widths in proportion to weights, and `reconcile` corrects them after a trial:
each column shrinks to what it used, and what becomes free goes to columns that were cut short.
-/

namespace MarkupText.Table

/-- No column is narrower, even if the table is then too wide. -/
def minColumnWidth : Nat := 3

/-- Width of the grid with columns of these widths, separators included. -/
def gridWidth (widths : List Nat) : Nat := widths.foldl (· + ·) 0 + widths.length + 1

/-- A whole number as a float. -/
def natFloat (n : Nat) : Float := n.toUInt64.toFloat

/-- The integer below a float, as a float. From 2 to the 52 on every float is an integer. -/
@[irreducible] def floor (x : Float) : Float :=
  if x.abs < natFloat (pow2 52) then
    let whole := x.abs.toUInt64.toFloat
    if whole == x.abs then x else if x < 0 then -whole - 1 else whole
  else x

/-- The integer below a float, zero for a negative one. -/
def floorNat (x : Float) : Nat := (floor x).toUInt64.toNat

/-- Rank of a float in the total order that puts negative zero below zero. -/
def orderRank (x : Float) : Int :=
  let bits := x.toBits.toNat
  if pow2 63 ≤ bits then (pow2 63 : Int) - 1 - bits else bits

/-- The indices of shares, those with the largest fractional part first. -/
def remainderOrder (shares : List Float) : List Nat :=
  let ranks := shares.map fun s => orderRank (s - floor s)
  let ranked := (List.range ranks.length).zip ranks
  (ranked.mergeSort fun a b => b.2 ≤ a.2).map (·.1)

/-- Adds one to the floors whose index is among the first `leftover` of `order`. -/
def apportion (floors order : List Nat) (leftover : Nat) : List Nat :=
  let raised := order.take leftover
  floors.mapIdx fun i w => if i ∈ raised then w + 1 else w

/-- The columns that share `available` columns by weight, before the least width is applied. -/
def shareOut (weights : List Float) (available : Nat) : List Nat :=
  let whole := weights.foldl (· + ·) 0
  let shares := weights.map fun w => w / whole * natFloat available
  let floors := shares.map floorNat
  apportion floors (remainderOrder shares) (available - floors.foldl (· + ·) 0)

/-- Widths for columns of these weights in a table of `width` columns after `indentation`. -/
def prorate (weights : List Float) (width indentation : Nat) : List Nat :=
  if weights.foldl (· + ·) 0 ≤ 0 then weights.map fun _ => minColumnWidth
  else
    let available := width - (indentation + weights.length + 1)
    (shareOut weights available).map (max minColumnWidth)

/-- Raises widths to their caps from left to right as far as `remaining` allows. -/
def raiseToCaps (remaining : Nat) : (widths caps : List Nat) → List Nat
  | w :: ws, cap :: caps =>
    let add := min (cap - w) remaining
    (w + add) :: raiseToCaps (remaining - add) ws caps
  | ws, _ => ws

/-- The list with the second added to it item by item. -/
def addEach : List Nat → List Nat → List Nat
  | a :: as, b :: bs => (a + b) :: addEach as bs
  | as, _ => as

/-- Final widths from those suggested, those that the cells used of them, and those that the cells
would have used freely. A column gets at most one more than it would use freely. -/
def reconcile (suggested used natural : List Nat) : List Nat :=
  let start := used.map (max minColumnWidth)
  let extra := suggested.foldl (· + ·) 0 - start.foldl (· + ·) 0
  let room := start.zipWith (fun w n => if w < n then n + 1 - w else 0) natural
  let demand := room.foldl (· + ·) 0
  if extra = 0 ∨ demand = 0 then start
  else
    let granted := room.map fun r => min (extra * r / demand) r
    raiseToCaps (extra - granted.foldl (· + ·) 0) (addEach start granted) (addEach start room)

end MarkupText.Table
