import MarkupText.Color.Named
import MarkupText.Decimal.Binary
import MarkupText.Decimal.Read

/-!
# Color notations

`Color.ofText?` reads any notation of a color: hexadecimal digits with or without `#`, a keyword,
or one of the functions `rgb`, `rgba`, `hsl` and `hsla` with three or four arguments. Commas,
blanks and slashes separate arguments alike. Channels out of range are clamped.
-/

namespace MarkupText.Color

/-- An argument of a color function. -/
inductive Argument where
  | number (x : Float)
  | percentage (x : Float)

/-- A number rounded to a channel and clamped to its range. -/
def channelOf (x : Float) : UInt8 := x.round.toUInt8

namespace Argument

/-- A red, green or blue channel; a percentage is relative to 255. -/
def toChannel : Argument → UInt8
  | number x => channelOf x
  | percentage x => channelOf (x * 255 / 100)

/-- An alpha channel; one is opaque. -/
def toAlpha : Argument → UInt8
  | number x => channelOf (x * 255)
  | percentage x => channelOf (x * 255 / 100)

/-- A hue in degrees. -/
def toDegrees : Argument → Float
  | number x => x
  | percentage x => x * 3.6

/-- A saturation or lightness, where a plain number is a percentage too. -/
def toFraction : Argument → Float
  | number x => x / 100
  | percentage x => x / 100

end Argument

/-- Without any number of units of degree at the end. -/
def dropDegrees (t : Text) : Text :=
  if "deg".toList.isSuffixOf t then dropDegrees (t.take (t.length - 3)) else t
termination_by t.length
decreasing_by
  rename_i h
  have := (List.isSuffixOf_iff_suffix.mp h).length_le
  simp at this ⊢
  omega

/-- A number, an angle in degrees or a percentage. -/
def readArgument? (t : Text) : Option Argument :=
  match t.dropLast? '%' with
  | some n => (readFloat? n).map .percentage
  | none => (readFloat? (dropDegrees t)).map .number

/-- The arguments of a color function, if all of them can be read. -/
def readArguments? (t : Text) : Option (List Argument) :=
  ((t.splitOnP fun c => c == ',' || c == '/' || isBlank c).filter (! ·.isEmpty)).mapM
    readArgument?

/-- The number in `[0, 1]` closest to `x`. -/
def clampUnit (x : Float) : Float := if x < 0 then 0 else if 1 < x then 1 else x

/-- The color of a hue in degrees, a saturation and a lightness. -/
def ofHsl (hue saturation lightness : Float) : Color :=
  let h := floatMod (floatMod hue 360 + 360) 360
  let s := clampUnit saturation
  let l := clampUnit lightness
  let chroma := (1 - (fusedMulAdd 2 l (-1)).abs) * s
  let sector := h / 60
  let x := chroma * (1 - (floatMod sector 2 - 1).abs)
  let (r, g, b) : Float × Float × Float := match sector.toUInt32.toNat with
    | 0 => (chroma, x, 0)
    | 1 => (x, chroma, 0)
    | 2 => (0, chroma, x)
    | 3 => (0, x, chroma)
    | 4 => (x, 0, chroma)
    | 5 => (chroma, 0, x)
    | _ => (0, 0, 0)
  let base := l - chroma / 2
  { r := channelOf ((r + base) * 255)
    g := channelOf ((g + base) * 255)
    b := channelOf ((b + base) * 255) }

/-- The color with the alpha of the fourth argument, if there is one. -/
def withAlpha (c : Color) : List Argument → Color
  | [] => c
  | a :: _ => { c with a := a.toAlpha }

/-- The value of a color function. -/
def ofFunction? (name : Text) (arguments : List Argument) : Option Color :=
  match String.ofList (Text.toLower name), arguments with
  | "rgb", r :: g :: b :: rest | "rgba", r :: g :: b :: rest =>
    some (withAlpha { r := r.toChannel, g := g.toChannel, b := b.toChannel } rest)
  | "hsl", h :: s :: l :: rest | "hsla", h :: s :: l :: rest =>
    some (withAlpha (ofHsl h.toDegrees s.toFraction l.toFraction) rest)
  | _, _ => none

/-- Reads any notation of a color. -/
def ofText? (t : Text) : Option Color :=
  let t := t.trim
  match t.cut? '(' with
  | some (name, rest) => do
    let arguments ← (rest.dropEndWhile isBlank).dropLast? ')'
    ofFunction? name.trim (← readArguments? arguments)
  | none =>
    if t.isEmpty then none
    else if t.head? = some '#' then ofHex? t
    else ofName? t <|> ofHex? t

end MarkupText.Color
