import MarkupText.Color.Contrast
import MarkupText.Style.Declaration

/-!
# The cascade

Each element that declares colors adds a `Frame` to the `StyleStack` of its descendants. A property
takes the innermost important declaration, or without one the innermost declaration of all.
-/

namespace MarkupText

/-- A color as declared on one element. -/
structure Declared where
  color : Color
  important : Bool := false
deriving DecidableEq

/-- The colors that one element declares. -/
structure Frame where
  foreground : Option Declared := none
  background : Option Declared := none
deriving DecidableEq

namespace Frame

def isEmpty (f : Frame) : Bool := f.foreground.isNone && f.background.isNone

def get (f : Frame) : ColorProperty → Option Declared
  | .foreground => f.foreground
  | .background => f.background

def set (f : Frame) (p : ColorProperty) (d : Declared) : Frame :=
  match p with
  | .foreground => { f with foreground := some d }
  | .background => { f with background := some d }

/-- The frame with declarations laid over it. -/
def apply (f : Frame) (ds : List Declaration) : Frame :=
  ds.foldl (fun f d => f.set d.property ⟨d.value, d.important⟩) f

end Frame

/-- The frames of the enclosing elements, innermost first. -/
abbrev StyleStack := List Frame

namespace StyleStack

/-- The declarations of a property, innermost first. -/
def declarations (s : StyleStack) (p : ColorProperty) : List Declared := s.filterMap (·.get p)

/-- The color that a property takes. -/
def lookup (s : StyleStack) (p : ColorProperty) : Option Color :=
  let ds := s.declarations p
  (ds.find? (·.important) <|> ds.head?).map (·.color)

/-- Both colors in force; a background of alpha zero counts as not set. -/
def resolve (s : StyleStack) : ColorPair where
  foreground := s.lookup .foreground
  background := (s.lookup .background).filter (·.a != 0)

end StyleStack
end MarkupText
