import MarkupText.Color.Basic

/-!
# Color keywords

The table lists the basic color keywords and the extended ones most often seen in mail and news
markup. `Color.ofName?` looks a keyword up without regard to case.
-/

namespace MarkupText.Color

/-- Keywords with red, green and blue. -/
def keywords : List (String × UInt8 × UInt8 × UInt8) := [
  ("black", 0, 0, 0), ("silver", 192, 192, 192), ("gray", 128, 128, 128), ("grey", 128, 128, 128),
  ("white", 255, 255, 255), ("maroon", 128, 0, 0), ("red", 255, 0, 0), ("purple", 128, 0, 128),
  ("fuchsia", 255, 0, 255), ("magenta", 255, 0, 255), ("green", 0, 128, 0), ("lime", 0, 255, 0),
  ("olive", 128, 128, 0), ("yellow", 255, 255, 0), ("navy", 0, 0, 128), ("blue", 0, 0, 255),
  ("teal", 0, 128, 128), ("aqua", 0, 255, 255), ("cyan", 0, 255, 255), ("orange", 255, 165, 0),
  ("brown", 165, 42, 42), ("pink", 255, 192, 203), ("gold", 255, 215, 0), ("beige", 245, 245, 220),
  ("ivory", 255, 255, 240), ("khaki", 240, 230, 140), ("lavender", 230, 230, 250),
  ("indigo", 75, 0, 130), ("violet", 238, 130, 238), ("coral", 255, 127, 80),
  ("salmon", 250, 128, 114), ("tomato", 255, 99, 71), ("crimson", 220, 20, 60),
  ("darkred", 139, 0, 0), ("darkblue", 0, 0, 139), ("darkgreen", 0, 100, 0),
  ("darkgray", 169, 169, 169), ("darkgrey", 169, 169, 169), ("lightgray", 211, 211, 211),
  ("lightgrey", 211, 211, 211), ("lightblue", 173, 216, 230), ("lightgreen", 144, 238, 144),
  ("lightyellow", 255, 255, 224), ("whitesmoke", 245, 245, 245), ("gainsboro", 220, 220, 220),
  ("dimgray", 105, 105, 105), ("dimgrey", 105, 105, 105), ("steelblue", 70, 130, 180),
  ("skyblue", 135, 206, 235), ("royalblue", 65, 105, 225), ("midnightblue", 25, 25, 112),
  ("forestgreen", 34, 139, 34), ("seagreen", 46, 139, 87), ("chocolate", 210, 105, 30),
  ("tan", 210, 180, 140), ("wheat", 245, 222, 179), ("snow", 255, 250, 250),
  ("linen", 250, 240, 230), ("aliceblue", 240, 248, 255), ("antiquewhite", 250, 235, 215)]

/-- The color of a keyword; `transparent` is black with alpha zero. -/
def ofName? (t : Text) : Option Color :=
  let name := t.trim
  if Text.sameLetters name "transparent".toList then some { r := 0, g := 0, b := 0, a := 0 }
  else
    (keywords.find? fun k => Text.sameLetters k.1.toList name).map fun (_, r, g, b) => { r, g, b }

end MarkupText.Color
