import MarkupText.Text.Basic
import MarkupText.Decimal.Digits

/-!
# Colors

A color has four channels of eight bits; alpha 255 is opaque. `Color.hex` writes it with two
lower-case digits a channel and leaves out an opaque alpha, and `Color.ofHex?` reads three, four,
six or eight digits.
-/

namespace MarkupText

/-- A color in red, green and blue with an alpha channel. -/
structure Color where
  r : UInt8
  g : UInt8
  b : UInt8
  a : UInt8 := 255
deriving DecidableEq, Inhabited

namespace Color

def black : Color := { r := 0, g := 0, b := 0 }

def white : Color := { r := 255, g := 255, b := 255 }

/-- The two lower-case hexadecimal digits of a channel. -/
def hexChannel (v : UInt8) : Text := [hexDigit (v.toNat / 16), hexDigit (v.toNat % 16)]

/-- The digits of a color after `#`. -/
def hexDigits (c : Color) : Text :=
  hexChannel c.r ++ hexChannel c.g ++ hexChannel c.b ++ (if c.a = 255 then [] else hexChannel c.a)

/-- `#rrggbb`, or `#rrggbbaa` unless opaque. -/
def hex (c : Color) : Text := '#' :: c.hexDigits

/-- The channel written by two digits. -/
def channel (hi lo : Nat) : UInt8 := UInt8.ofNat (16 * hi + lo)

/-- The color that three, four, six or eight digit values stand for; with three or four each digit
counts twice. -/
def ofDigits? : List Nat → Option Color
  | [r, g, b] => some { r := channel r r, g := channel g g, b := channel b b }
  | [r, g, b, a] => some { r := channel r r, g := channel g g, b := channel b b, a := channel a a }
  | [r, r', g, g', b, b'] => some { r := channel r r', g := channel g g', b := channel b b' }
  | [r, r', g, g', b, b', a, a'] =>
    some { r := channel r r', g := channel g g', b := channel b b', a := channel a a' }
  | _ => none

/-- Reads hexadecimal digits after an optional `#`. -/
def ofHex? (t : Text) : Option Color := do
  let digits := if t.head? = some '#' then t.drop 1 else t
  ofDigits? (← digits.mapM hexValue?)

end Color
end MarkupText
