import MarkupText.Decimal.Digits

/-!
# Reading decimals

`readFloat?` accepts a sign, digits with at most one point among or around them, and an exponent;
also the words for infinity and for not-a-number in any case. The result is the nearest float.
-/

namespace MarkupText

/-- The nearest float to `digits * 10 ^ exponent`; exponents out of all range are cut off first. -/
def nearestFloat (digits : Nat) (exponent : Int) : Float :=
  let top := (natText digits).length + exponent
  if digits = 0 then 0
  else if 320 < top then 1 / 0
  else if top < -350 then 0
  else Float.ofScientific digits (exponent < 0) exponent.natAbs

/-- An optional sign and what follows it. -/
def readSign (t : Text) : Bool × Text :=
  match t with
  | '-' :: t => (true, t)
  | '+' :: t => (false, t)
  | t => (false, t)

/-- The exponent that ends a number: nothing, or `e` with a signed integer. -/
def readExponent? (t : Text) : Option Int :=
  match t with
  | [] => some 0
  | c :: t =>
    if c = 'e' ∨ c = 'E' then
      let (negative, digits) := readSign t
      if digits.isEmpty || !digits.all isDigit then none
      else
        let n : Int := digitsValue 0 digits
        some (if negative then -n else n)
    else none

/-- A number without its sign. -/
def readMagnitude? (t : Text) : Option Float :=
  let whole := t.takeWhile isDigit
  let rest := t.dropWhile isDigit
  let (fraction, rest) := match rest with
    | '.' :: r => (r.takeWhile isDigit, r.dropWhile isDigit)
    | r => ([], r)
  if whole.isEmpty && fraction.isEmpty then none
  else do
    let e ← readExponent? rest
    return nearestFloat (digitsValue 0 (whole ++ fraction)) (e - fraction.length)

/-- The float that a decimal stands for. -/
def readFloat? (t : Text) : Option Float :=
  let (negative, t) := readSign t
  let word := String.ofList (Text.toLower t)
  let magnitude? :=
    if word = "inf" ∨ word = "infinity" then some (1 / 0)
    else if word = "nan" then some (0 / 0)
    else readMagnitude? t
  magnitude?.map fun x => if negative then -x else x

end MarkupText
