import MarkupText.Decimal.Binary
import MarkupText.Decimal.Digits

/-!
# The shortest decimal that reads back

Every finite float owns the interval of reals that round to it. `shortest` looks on the decimal
grids of 1, 2, ... 17 digits for a point of that interval; the first grid that has one gives the
digits, and of two points the nearer one. `floatText` writes them: positionally for numbers from
0.00001 up to below 10 ^ 16, with an exponent otherwise, and so that a float never reads as an
integer.
-/

namespace MarkupText

/-- `digits * 10 ^ exponent`. -/
structure Scientific where
  digits : Nat
  exponent : Int

/-- The greatest `e` with `10 ^ e * den ≤ num`, for positive arguments. -/
def floorLog10 (num den : Nat) : Int :=
  if den ≤ num then (natText (num / den)).length - 1
  else
    let l := (natText (den / num)).length
    if den ≤ num * pow10 (l - 1) then 1 - (l : Int) else -(l : Int)

/-- The point of the grid of multiples of `10 ^ k` nearest to `m * 2 ^ e`, if it is in the interval
that rounds to that float. In quarters of the last bit, the interval reaches two up and `below`
down. -/
def gridPoint? (m : Nat) (e : Int) (below : Nat) (k : Int) : Option Nat :=
  let q := e - 2
  let scale := pow2 q.toNat * pow10 (-k).toNat
  let unit := pow2 (-q).toNat * pow10 k.toNat
  let inside (d : Nat) : Bool :=
    let lo := (4 * m - below) * scale
    let hi := (4 * m + 2) * scale
    let x := d * unit
    if m % 2 = 0 then lo ≤ x && x ≤ hi else lo < x && x < hi
  let value := 4 * m * scale
  let d := value / unit
  let down := value - d * unit
  let up := (d + 1) * unit - value
  let nearer := if down < up then d else if up < down then d + 1 else d + d % 2
  let other := if nearer = d then d + 1 else d
  if inside nearer then some nearer else if inside other then some other else none

/-- Looks at `fuel` grids, each ten times finer than the one before, from multiples of `10 ^ k` on.
-/
def searchGrids (m : Nat) (e : Int) (below : Nat) : (fuel : Nat) → (k : Int) → Scientific
  | 0, k => ⟨m * pow2 e.toNat * pow10 (-k).toNat / pow2 (-e).toNat, k⟩
  | fuel + 1, k =>
    match gridPoint? m e below k with
    | some d => ⟨d, k⟩
    | none => searchGrids m e below fuel (k - 1)

/-- The decimal with the fewest digits that rounds to the positive float `m * 2 ^ e`. -/
def shortest (m : Nat) (e : Int) : Scientific :=
  let below := if m = pow2 52 ∧ minExponent < e then 1 else 2
  searchGrids m e below 18 (floorLog10 (m * pow2 e.toNat) (pow2 (-e).toNat))

/-- Without zeros at its end. -/
def stripZeros (t : Text) : Text := Text.dropEndWhile (· == '0') t

/-- Digits that stand for `0.digits * 10 ^ point`, written positionally with a point, or with an
exponent where that would take too many zeros. -/
def placePoint (digits : Text) (point : Int) : Text :=
  let zeros (n : Int) : Text := List.replicate n.toNat '0'
  let n : Int := digits.length
  if 16 < point ∨ point ≤ -5 then
    let e := point - 1
    let mantissa := digits.take 1 ++ (if n = 1 then [] else '.' :: digits.drop 1)
    mantissa ++ ['e', if e < 0 then '-' else '+'] ++ natText e.natAbs
  else if point ≤ 0 then "0.".toList ++ zeros (-point) ++ digits
  else if n ≤ point then digits ++ zeros (point - n) ++ ".0".toList
  else digits.take point.toNat ++ '.' :: digits.drop point.toNat

/-- A finite float in as few digits as read back to it. -/
def floatText (x : Float) : Text :=
  let (negative, m, e) := floatParts x
  let magnitude :=
    if m = 0 then "0.0".toList
    else
      let s := shortest m e
      let digits := natText s.digits
      placePoint (stripZeros digits) (digits.length + s.exponent)
  if negative then '-' :: magnitude else magnitude

end MarkupText
