import MarkupText.Json.Cursor
import MarkupText.Json.Value

/-!
# Reading JSON numbers

Digits are gathered in a significand of 64 bits; those that no longer fit only count for the decimal
exponent before the point, and are dropped after it. A number with a point or an exponent is the
significand as a float, multiplied by or divided by the power of ten.
-/

namespace MarkupText.Json

/-- The bound of a significand. -/
def significandBound : Nat := pow2 64

/-- The bound of a written exponent. -/
def exponentBound : Nat := pow2 31

/-- The float nearest to `10 ^ n`. -/
def powerOfTen (n : Nat) : Float := Float.ofScientific 1 false n

/-- The greatest power of ten that a float can hold. -/
def maxPower : Nat := 308

/-- `x` divided `steps` times by the greatest power of ten. -/
def divSteps (x : Float) : (steps : Nat) → Float
  | 0 => x
  | steps + 1 => if x == 0 then x else divSteps (x / powerOfTen maxPower) steps

/-- `x / 10 ^ n`, in steps of the greatest power as long as more is left. -/
def divPower (x : Float) (n : Nat) : Float :=
  let steps := (n - 1) / maxPower
  divSteps x steps / powerOfTen (n - maxPower * steps)

/-- The significand scaled by a power of ten; `none` if that exceeds all floats. -/
def scaled? (significand : Nat) (exponent : Int) : Option Float :=
  let x := significand.toUInt64.toFloat
  if exponent < 0 then some (divPower x exponent.natAbs)
  else if exponent ≤ maxPower then
    let y := x * powerOfTen exponent.natAbs
    if y.isInf then none else some y
  else if significand = 0 then some x
  else none

/-- A number so far: its digits and the power of ten they count. -/
structure Significand where
  digits : Nat
  exponent : Int := 0

/-- The number for a sign, the scaled significand and the place reached. -/
def finishDecimal (negative : Bool) (s : Significand) : Reader Number := fun c =>
  match scaled? s.digits s.exponent with
  | some x => .ok (.decimal (if negative then -x else x), c)
  | none => .error (c.errorHere .numberOutOfRange)

/-- Reads the digits of an exponent after `n`. -/
def readExponentFrom (negative positiveExponent : Bool) (s : Significand) (n : Nat) :
    (digits : Text) → Reader Number
  | [], c =>
    let e : Int := if positiveExponent then n else -(n : Int)
    finishDecimal negative { s with exponent := s.exponent + e } c
  | d :: ds, c =>
    let n' := digitsValue n [d]
    if n' < exponentBound then readExponentFrom negative positiveExponent s n' ds c.next
    else if s.digits ≠ 0 ∧ positiveExponent then .error (c.next.errorHere .numberOutOfRange)
    else .ok (.decimal (if negative then -0.0 else 0), c.skip (ds.length + 1))

/-- Reads an exponent, whose letter comes next. -/
def readExponent (negative : Bool) (s : Significand) : Reader Number := fun c =>
  let c := c.next
  let (positiveExponent, c) :=
    if c.peek = '+' then (true, c.next) else if c.peek = '-' then (false, c.next) else (true, c)
  match c.rest with
  | [] => .error (c.errorHere .eofValue)
  | d :: _ =>
    if isDigit d then
      readExponentFrom negative positiveExponent s 0 (c.rest.takeWhile isDigit) c
    else .error (c.errorNext .invalidNumber)

/-- Reads what may follow the digits after a point. -/
def readAfterFraction (negative : Bool) (s : Significand) : Reader Number := fun c =>
  if c.peek = 'e' ∨ c.peek = 'E' then readExponent negative s c else finishDecimal negative s c

/-- Adds digits after the point as long as the significand has room for them. -/
def addFraction (s : Significand) : Text → Significand
  | [] => s
  | d :: ds =>
    let n := digitsValue s.digits [d]
    if n < significandBound then addFraction ⟨n, s.exponent - 1⟩ ds else s

/-- Reads the digits after a point, which comes next. -/
def readFraction (negative : Bool) (s : Significand) : Reader Number := fun c =>
  let c := c.next
  let digits := c.rest.takeWhile isDigit
  if digits.isEmpty then
    .error (c.errorNext (if c.rest.isEmpty then .eofValue else .invalidNumber))
  else readAfterFraction negative (addFraction s digits) (c.skip digits.length)

/-- Adds digits before the point; those for which the significand has no room scale it instead. -/
def addWhole (s : Significand) : Text → Significand
  | [] => s
  | d :: ds =>
    let n := digitsValue s.digits [d]
    if n < significandBound then addWhole { s with digits := n } ds
    else { s with exponent := (d :: ds).length }

/-- The integer of these digits, as a float if it needs more than 64 bits or is minus zero. -/
def finishInteger (negative : Bool) (s : Significand) (overflow : Bool) : Reader Number := fun c =>
  if overflow then finishDecimal negative s c
  else if !negative then .ok (.natural s.digits, c)
  else if s.digits = 0 ∨ pow2 63 < s.digits then .ok (.decimal (-s.digits.toUInt64.toFloat), c)
  else .ok (.negative s.digits, c)

/-- Reads a number after its sign. -/
def readMagnitude (negative : Bool) : Reader Number := fun c =>
  match c.rest with
  | [] => .error (c.errorHere .eofValue)
  | d :: _ =>
    let digits := c.rest.takeWhile isDigit
    if digits.isEmpty then .error (c.errorNext .invalidNumber)
    else if d = '0' ∧ 1 < digits.length then .error (c.next.errorNext .invalidNumber)
    else
      let s := addWhole ⟨0, 0⟩ digits
      let c := c.skip digits.length
      if c.peek = '.' then readFraction negative s c
      else if c.peek = 'e' ∨ c.peek = 'E' then readExponent negative s c
      else finishInteger negative s (significandBound ≤ digitsValue 0 digits) c

/-- Reads a number, of which a digit or a minus sign comes next. -/
def readNumber : Reader Number := fun c =>
  if c.peek = '-' then readMagnitude true c.next else readMagnitude false c

end MarkupText.Json
