import MarkupText.Color.Contrast
import MarkupText.LineBreak.Rules
import MarkupText.Pattern.Match
import MarkupText.Pattern.Reader

/-!
# Options

What tunes a render: the display (`Surface`), the target width, the patterns of image sources that
are shown as their alternative text, and the exchangeable rules for line breaks and contrast.
-/

namespace MarkupText

/-- The display that the text is for. -/
structure Surface where
  columns : Nat := 80
  /-- The foreground where the markup declares none. -/
  foreground : Color := .black
  /-- The background where the markup declares none. -/
  background : Color := .white

/-- The number of columns to wrap at. -/
inductive TargetWidth where
  | fixed (columns : Nat)
  /-- As many as the display has. -/
  | full

/-- How the result is presented. Rendering does not depend on it. -/
inductive DisplayMode where
  | visible
  | audible
  | echo
deriving DecidableEq

namespace DisplayMode

def name : DisplayMode → String
  | visible => "visible"
  | audible => "audible"
  | echo => "echo"

/-- The mode of a name in any case. -/
def ofName? (t : Text) : Option DisplayMode :=
  [visible, audible, echo].find? fun m => Text.sameLetters m.name.toList t

end DisplayMode

/-- Everything that tunes a render. -/
structure Options where
  width : TargetWidth := .full
  /-- Largest fraction of the window that an image may take. -/
  maxImageProportion : Float := 0.9
  /-- Image sources that match one of these are shown as their alternative text. -/
  blockedImages : List Pattern := []
  displayMode : DisplayMode := .visible
  rules : LineBreak.Rules := .kinsoku
  contrast : ContrastChecker := Contrast.standard

/-- Why options cannot be made. -/
inductive OptionsError where
  | invalidPattern (pattern : Text)
deriving DecidableEq

def OptionsError.message : OptionsError → Text
  | invalidPattern p => "invalid blocked-image pattern \x60".toList ++ p ++ ['\x60']

namespace Options

/-- Sets the proportion of images, at most one; a proportion that is not positive is ignored. -/
def withImageProportion (o : Options) (x : Float) : Options :=
  if x.isFinite && 0 < x then { o with maxImageProportion := if x < 1 then x else 1 } else o

/-- Adds patterns of blocked image sources; the first invalid one is an error. -/
def blockImages (o : Options) : List Text → Except OptionsError Options
  | [] => .ok o
  | t :: ts =>
    match Pattern.ofText? t with
    | none => .error (.invalidPattern t)
    | some p => blockImages { o with blockedImages := o.blockedImages ++ [p] } ts

/-- Whether an image source is shown as its alternative text. -/
def isBlocked (o : Options) (source : Text) : Bool := o.blockedImages.any (·.occursIn source)

/-- The width to wrap at, at least one column. -/
def resolveWidth (o : Options) (s : Surface) : Nat :=
  max 1 <| match o.width with
    | .fixed n => n
    | .full => s.columns

end Options
end MarkupText
