import MarkupText.Decimal.Digits

/-!
# Exact arithmetic on binary floating-point numbers

A finite float is a `Binary`, an integer times a power of two. Sums, products and remainders of
such numbers are exact, and `Binary.toFloat` rounds once, to the nearest float and to an even last
bit on a tie. `fusedMulAdd` and `floatMod` compute in this way.
-/

namespace MarkupText

/-- The number `num * 2 ^ exp`. -/
structure Binary where
  num : Int
  exp : Int

/-- Position of the last bit of the smallest positive float. -/
def minExponent : Int := -1074

/-- Sign, and magnitude as `m * 2 ^ e` with `e` at least `minExponent`, of a finite float. -/
def floatParts (x : Float) : Bool × Nat × Int :=
  let bits : Nat := x.toBits.toNat
  let exponent : Nat := bits / pow2 52 % 2048
  let fraction : Nat := bits % pow2 52
  (pow2 63 ≤ bits,
    if exponent = 0 then (fraction, minExponent) else (fraction + pow2 52, (exponent : Int) - 1075))

/-- `n / 2 ^ s` rounded to the nearest integer, ties to even. -/
def shiftRound (n s : Nat) : Nat :=
  let q := n / pow2 s
  let r := n % pow2 s
  if 2 * r < pow2 s then q
  else if 2 * r = pow2 s then q + q % 2
  else q + 1

namespace Binary

/-- The value of a finite float. -/
def ofFloat (x : Float) : Binary :=
  let (negative, m, e) := floatParts x
  ⟨if negative then -(m : Int) else m, e⟩

/-- The same number with its last bit at `exp`, which must not exceed the present position. -/
def numAt (a : Binary) (exp : Int) : Int := a.num * pow2 (a.exp - exp).toNat

def add (a b : Binary) : Binary :=
  let e := min a.exp b.exp
  ⟨a.numAt e + b.numAt e, e⟩

def mul (a b : Binary) : Binary := ⟨a.num * b.num, a.exp + b.exp⟩

/-- The remainder of the division truncated toward zero; it has the sign of `a`. -/
def mod (a b : Binary) : Binary :=
  let e := min a.exp b.exp
  ⟨(a.numAt e).tmod (b.numAt e), e⟩

/-- The nearest float, on a tie the one with an even last bit; infinite beyond the largest. -/
def toFloat (a : Binary) : Float :=
  let n := a.num.natAbs
  if n = 0 then 0
  else
    let e := max (a.exp + n.log2 - 52) minExponent
    let m := if e ≤ a.exp then n * pow2 (a.exp - e).toNat else shiftRound n (e - a.exp).toNat
    let bits := min ((e - minExponent).toNat * pow2 52 + m) (2047 * pow2 52)
    let x := Float.ofBits bits.toUInt64
    if a.num < 0 then -x else x

end Binary

/-- `x * y + z` rounded once. -/
def fusedMulAdd (x y z : Float) : Float :=
  if x.isFinite && y.isFinite && z.isFinite then
    (((Binary.ofFloat x).mul (.ofFloat y)).add (.ofFloat z)).toFloat
  else x * y + z

/-- The remainder of `x / y` truncated toward zero, for a finite `y` other than zero; not a number
when `x` is not finite. -/
def floatMod (x y : Float) : Float :=
  if x.isFinite then ((Binary.ofFloat x).mod (.ofFloat y)).toFloat else x - x

end MarkupText
