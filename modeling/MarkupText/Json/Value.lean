import MarkupText.Decimal.Shortest

/-!
# JSON values

`Json.Value` is a JSON value as read: the fields of an object keep their order and repetitions. A
number is an integer if it is written as one and fits in 64 bits, and a float otherwise.
-/

namespace MarkupText.Json

/-- A number as it is kept. -/
inductive Number where
  | natural (n : Nat)
  /-- The integer `-n`, for a positive `n`. -/
  | negative (n : Nat)
  | decimal (x : Float)

/-- The text of a number: integers in digits, floats with a point or an exponent. -/
def Number.text : Number → Text
  | natural n => natText n
  | negative n => '-' :: natText n
  | decimal x => floatText x

/-- A JSON value. -/
inductive Value where
  | null
  | bool (b : Bool)
  | number (n : Number)
  | string (t : Text)
  | array (items : List Value)
  | object (fields : List (Text × Value))

end MarkupText.Json
