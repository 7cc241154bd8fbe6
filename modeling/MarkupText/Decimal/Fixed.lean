import MarkupText.Decimal.Binary
import MarkupText.Decimal.Digits

/-!
# Decimals with a fixed number of places

`fixedText` writes a finite float with exactly nine places: the exact value rounded to the nearest
multiple of the last place, ties to even. Zero has no sign.
-/

namespace MarkupText

/-- `num / den` rounded to the nearest integer, ties to even. -/
def divRound (num den : Nat) : Nat :=
  let q := num / den
  let r := num % den
  if 2 * r < den then q
  else if 2 * r = den then q + q % 2
  else q + 1

/-- A number of at least `width` digits, with leading zeros. -/
def padded (width n : Nat) : Text :=
  let t := natText n
  List.replicate (width - t.length) '0' ++ t

/-- A finite float with nine places. -/
def fixedText (x : Float) : Text :=
  let (negative, m, e) := floatParts x
  let n := divRound (m * pow2 e.toNat * pow10 9) (pow2 (-e).toNat)
  let magnitude := natText (n / pow10 9) ++ '.' :: padded 9 (n % pow10 9)
  if negative && n != 0 then '-' :: magnitude else magnitude

end MarkupText
