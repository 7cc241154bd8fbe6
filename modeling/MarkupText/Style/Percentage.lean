import MarkupText.Decimal.Read

/-!
# Percentages

`readPercentage?` reads a width hint such as `30%` as a fraction. Other units mean nothing on a
character grid.
-/

namespace MarkupText

/-- The fraction that a positive percentage stands for. -/
def readPercentage? (t : Text) : Option Float := do
  let number ← t.trim.dropLast? '%'
  let x ← readFloat? number.trim
  if x.isFinite && 0 < x then some (x / 100) else none

end MarkupText
