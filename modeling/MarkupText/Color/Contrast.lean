import MarkupText.Color.Lightness

/-!
# Readable colors

Markup declares colors for a page that may not be the display's. A `ContrastChecker` turns a
foreground on a background into a readable pair; `lightnessContrast` keeps the background and moves
the foreground toward black or white until their lightness differs enough. `resolveVisible` applies
a checker to the colors declared for a region.
-/

namespace MarkupText

/-- A readable pair for a foreground on a background. -/
abbrev ContrastChecker := Color → Color → Color × Color

/-- The colors of a region; one that is not set is left to the display. -/
structure ColorPair where
  foreground : Option Color := none
  background : Option Color := none
deriving DecidableEq

namespace ColorPair

def isEmpty (p : ColorPair) : Bool := p.foreground.isNone && p.background.isNone

end ColorPair

namespace Contrast

/-- Distance between the blends that are tried. -/
def step : Float := 0.05

/-- `t` and the further steps up to one. -/
def stepsFrom : (fuel : Nat) → Float → List Float
  | 0, _ => []
  | fuel + 1, t => if t ≤ 1 then t :: stepsFrom fuel (t + step) else []

/-- The blends that are tried, by running sums of the step. -/
def steps : List Float := stepsFrom 40 step

/-- Whether the lightness of two colors differs by at least `minDifference`. -/
def readable (minDifference : Float) (background c : Color) : Bool :=
  minDifference ≤ (c.lightness - background.lightness).abs

/-- Keeps a readable foreground. Otherwise takes the first readable blend of it, first toward the
end of the lightness scale far from the background, then toward the other; and that far end itself
when there is none. -/
def lightnessContrast (minDifference : Float) : ContrastChecker := fun foreground background =>
  if readable minDifference background foreground then (foreground, background)
  else
    let (far, near) :=
      if 50 ≤ background.lightness then (Color.black, Color.white) else (Color.white, Color.black)
    let blends := steps.map (foreground.blend far) ++ steps.map (foreground.blend near)
    ((blends.find? (readable minDifference background)).getD far, background)

/-- A checker that always answers the same pair. -/
def constant (foreground background : Color) : ContrastChecker :=
  fun _ _ => (foreground, background)

/-- The checker used unless another is chosen. -/
def standard : ContrastChecker := lightnessContrast 40

/-- The colors to apply for those declared. A side that was not declared counts as the default in
the check, and is set afterwards only if the checker changed it. -/
def resolveVisible (checker : ContrastChecker) (defaultForeground defaultBackground : Color)
    (declared : ColorPair) : ColorPair :=
  if declared.isEmpty then declared
  else
    let fg := declared.foreground.getD defaultForeground
    let bg := declared.background.getD defaultBackground
    let (fg', bg') := checker fg bg
    { foreground := if declared.foreground.isSome || fg' != fg then some fg' else none
      background := if declared.background.isSome || bg' != bg then some bg' else none }

end Contrast
end MarkupText
