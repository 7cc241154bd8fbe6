import MarkupText.Color.Basic
import MarkupText.Decimal.Binary

/-!
# Lightness and blending

Relative luminance and the perceptual lightness computed from it, and the linear blend of two
colors. Sums of products are rounded once.
-/

namespace MarkupText.Color

/-- A channel as linear light between zero and one. -/
def linearLight (channel : UInt8) : Float :=
  let c := channel.toNat.toFloat / 255
  if c ≤ 0.04045 then c / 12.92 else ((c + 0.055) / 1.055).pow 2.4

/-- Relative luminance: 0 for black, 1 for white. -/
def luminance (c : Color) : Float :=
  fusedMulAdd 0.0722 (linearLight c.b)
    (fusedMulAdd 0.2126 (linearLight c.r) (0.7152 * linearLight c.g))

/-- Perceptual lightness: 0 for black, 100 for white. -/
def lightness (c : Color) : Float :=
  let y := c.luminance
  let f := if 216.0 / 24389.0 < y then y.cbrt else fusedMulAdd (24389.0 / 27.0) y 16 / 116
  fusedMulAdd 116 f (-16)

/-- The channel `t` of the way from `x` to `y`. -/
def blendChannel (t : Float) (x y : UInt8) : UInt8 :=
  let x := x.toNat.toFloat
  (fusedMulAdd (y.toNat.toFloat - x) t x).round.toUInt8

/-- The color `t` of the way from `c` to `d`, for `t` clamped to `[0, 1]`, with the alpha of `c`. -/
def blend (c d : Color) (t : Float) : Color :=
  let t := if t < 0 then 0 else if 1 < t then 1 else t
  { r := blendChannel t c.r d.r
    g := blendChannel t c.g d.g
    b := blendChannel t c.b d.b
    a := c.a }

end MarkupText.Color
